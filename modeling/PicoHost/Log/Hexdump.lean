import Mathlib.Algebra.Group.Nat.Defs
import Mathlib.Data.List.Basic
import Mathlib.Tactic.Basic

/-!
# The hex dump (`esp_log.c`)

`esp_log_buffer_hexdump_internal` writes each line into `hd_buffer` with a series of `sprintf`
at a cursor: an address, the bytes in hex in two groups of eight, and the bytes as characters.
A write past the end of `hd_buffer` is a write into what lies behind it, and shows in `top`.

What the `sprintf` put together is a list of characters (`Holds`), so the columns of a line are
those of `lineText`. `char` is unsigned, as it is on the target.
-/

namespace PicoHost.Log

/-- `BYTES_PER_LINE` -/
def bytesPerLine : Nat := 16

/-- `sizeof(hd_buffer)` -/
def hdBufferSize : Nat := 10 + 3 + bytesPerLine * 3 + 3 + bytesPerLine + 1 + 1

/-- What `%p` prints for an address -/
structure PointerText where
  text : UInt32 → List Char
  length_le : ∀ a, (text a).length ≤ 10
  noNul : ∀ a, '\x00' ∉ text a

/-- `hd_buffer` and what lies behind it, the cursor `ptr_hd`, and where the writes end -/
structure HdBuffer where
  chars : Nat → Char
  ptrHd : Nat
  top : Nat

/-- `ptr_hd += sprintf(ptr_hd, …)` for what prints as `text` -/
def HdBuffer.sprintf (b : HdBuffer) (text : List Char) : HdBuffer where
  chars i :=
    if i < b.ptrHd then b.chars i
    else if h : i - b.ptrHd < text.length then text[i - b.ptrHd]
    else if i = b.ptrHd + text.length then '\x00'
    else b.chars i
  ptrHd := b.ptrHd + text.length
  top := max b.top (b.ptrHd + text.length + 1)

/-- The string that starts at `hd_buffer` -/
def HdBuffer.string (b : HdBuffer) : List Char :=
  ((List.range b.top).map b.chars).takeWhile (· ≠ '\x00')

/-- `%02x` of a byte -/
def hexDigits (byte : UInt8) : List Char :=
  [Nat.digitChar (byte.toNat / 16), Nat.digitChar (byte.toNat % 16)]

/-- `isprint`, in the C locale -/
def isprint (byte : UInt8) : Bool := 0x20 ≤ byte && byte ≤ 0x7E

/-- A byte as a character, or a dot -/
def printable (byte : UInt8) : Char :=
  if isprint byte then Char.ofNat byte.toNat else '.'

/-- One turn of the loop over the hex digits -/
def hexCell (ptrLine : Nat → UInt8) (bytesCurLine : Nat) (b : HdBuffer) (i : Nat) : HdBuffer :=
  let b := if i &&& 7 = 0 then b.sprintf [' '] else b
  if i < bytesCurLine then b.sprintf (' ' :: hexDigits (ptrLine i)) else b.sprintf [' ', ' ', ' ']

/-- A line that was logged, and where the writes into `hd_buffer` ended -/
structure Line where
  text : List Char
  top : Nat

/-- One line (esp_log.c:52–80) -/
def hexdumpLine (p : PointerText) (ptrLine : Nat → UInt8) (startBuffMarker : Bool)
    (buffer : UInt32) (bytesCurLine : Nat) : Line :=
  let b : HdBuffer := ⟨fun _ => '?', 0, 0⟩
  let b := b.sprintf ((if startBuffMarker then '>' else ' ') :: p.text buffer ++ [' '])
  let b := (List.range bytesPerLine).foldl (hexCell ptrLine bytesCurLine) b
  let b := b.sprintf [' ', ' ', '|']
  let b := (List.range bytesCurLine).foldl (fun b i => b.sprintf [printable (ptrLine i)]) b
  let b := b.sprintf ['|']
  ⟨b.string, b.top⟩

/-- `bytes_cur_line` -/
def curLine (buffLen : UInt16) : UInt16 := if 16 < buffLen then 16 else buffLen

/-- A line has sixteen bytes, or what is left. -/
theorem curLine_toNat (buffLen : UInt16) :
    (curLine buffLen).toNat = min bytesPerLine buffLen.toNat := by
  rw [curLine]
  split
  · rename_i hlt
    exact (Nat.min_eq_left (Nat.le_of_lt hlt)).symm
  · rename_i hle
    exact (Nat.min_eq_right (Nat.not_lt.mp hle)).symm

/-- What is left after a line, without wrapping around -/
theorem sub_curLine_toNat (buffLen : UInt16) :
    (buffLen - curLine buffLen).toNat = buffLen.toNat - bytesPerLine := by
  have hcur := curLine_toNat buffLen
  have hle : curLine buffLen ≤ buffLen := UInt16.le_iff_toNat_le.mpr (by omega)
  rw [UInt16.toNat_sub_of_le _ _ hle]
  omega

/-- The loop of `esp_log_buffer_hexdump_internal` -/
def hexdumpLoop (p : PointerText) (memory : UInt32 → UInt8) (buffer : UInt32) (buffLen : UInt16)
    (startBuffMarker : Bool) : List Line :=
  let line := hexdumpLine p (fun i => memory (buffer + .ofNat i)) startBuffMarker buffer
    (curLine buffLen).toNat
  if buffLen - curLine buffLen = 0 then [line]
  else line :: hexdumpLoop p memory (buffer + (curLine buffLen).toUInt32)
    (buffLen - curLine buffLen) false
termination_by buffLen.toNat
decreasing_by
  rename_i hrest
  have hrest : (buffLen - curLine buffLen).toNat ≠ 0 := fun hzero =>
    hrest (UInt16.toNat_inj.mp hzero)
  have hsub := sub_curLine_toNat buffLen
  rw [bytesPerLine] at hsub
  omega

/-- `esp_log_buffer_hexdump_internal` (esp_log.c:32–84): the lines it logs -/
def espLogBufferHexdumpInternal (p : PointerText) (memory : UInt32 → UInt8) (buffer : UInt32)
    (buffLen : UInt16) : List Line :=
  if buffLen = 0 then [] else hexdumpLoop p memory buffer buffLen true

/-! ## Lines that show their bytes -/

/-- Where the hex digits of byte `i` are in a line with an address of `n` characters: the bytes take
three columns each, and every group begins with one more. -/
def hexColumn (n i : Nat) : Nat := n + 4 + 3 * i + i / 8

/-- Where its character is -/
def charColumn (n i : Nat) : Nat := n + 55 + i

/-- The line has the address, and every byte both in hex and as a character. -/
structure Shows (address : List Char) (bytes : List UInt8) (text : List Char) : Prop where
  starts : (text.drop 1).take address.length = address
  hex : ∀ i byte, bytes[i]? = some byte →
    (text.drop (hexColumn address.length i)).take 2 = hexDigits byte
  char : ∀ i byte, bytes[i]? = some byte →
    text[charColumn address.length i]? = some (printable byte)

/-- The lines show the bytes from `buffer` on, each once and in order: sixteen in every line, and
what is left in the last one. -/
inductive Covers (p : PointerText) : UInt32 → List UInt8 → List Line → Prop
  | done (buffer : UInt32) : Covers p buffer [] []
  | line (buffer : UInt32) (chunk rest : List UInt8) (line : Line) (lines : List Line)
      (pos : chunk ≠ []) (le : chunk.length ≤ bytesPerLine)
      (full : rest ≠ [] → chunk.length = bytesPerLine)
      (shows_ : Shows (p.text buffer) chunk line.text)
      (covers : Covers p (buffer + 16) rest lines) :
      Covers p buffer (chunk ++ rest) (line :: lines)

/-- The bytes that are dumped -/
def bytesAt (memory : UInt32 → UInt8) (buffer : UInt32) (n : Nat) : List UInt8 :=
  (List.range n).map fun i => memory (buffer + .ofNat i)

/-- What a dump is to be -/
structure Dumped (p : PointerText) (memory : UInt32 → UInt8) (buffer : UInt32) (buffLen : UInt16)
    (lines : List Line) : Prop where
  covers : Covers p buffer (bytesAt memory buffer buffLen.toNat) lines
  fits : ∀ line ∈ lines, line.top ≤ hdBufferSize

/-! ## The text of a line -/

/-- The buffer holds a text up to the cursor. -/
structure HdBuffer.Holds (b : HdBuffer) (text : List Char) : Prop where
  ptrHd : b.ptrHd = text.length
  chars : (List.range text.length).map b.chars = text
  top : b.top ≤ text.length + 1

/-- Nothing is written yet. -/
theorem HdBuffer.holds_nil (chars : Nat → Char) : Holds ⟨chars, 0, 0⟩ [] :=
  ⟨rfl, rfl, Nat.zero_le _⟩

section Holds

variable {b : HdBuffer} {text s : List Char}

/-- The characters of the buffer are those of the text. -/
theorem HdBuffer.Holds.char (h : b.Holds text) {i : Nat} (hi : i < text.length) :
    b.chars i = text[i] := by
  have hget : ((List.range text.length).map b.chars)[i]? = text[i]? := by rw [h.chars]
  rw [List.getElem?_map, List.getElem?_range hi, List.getElem?_eq_getElem hi] at hget
  exact Option.some.inj hget

/-- `sprintf` appends its text and moves the pointer. -/
theorem HdBuffer.Holds.sprintf (h : b.Holds text) (s : List Char) :
    (b.sprintf s).Holds (text ++ s) where
  ptrHd := by
    rw [List.length_append, ← h.ptrHd]
    rfl
  chars := by
    refine List.ext_getElem (by rw [List.length_map, List.length_range]) fun i _ hi => ?_
    rw [List.getElem_map, List.getElem_range]
    show (if _ then _ else _) = _
    rw [h.ptrHd]
    split
    · rename_i hlt
      rw [List.getElem_append_left hlt, h.char hlt]
    · rename_i hle
      have hle := Nat.not_lt.mp hle
      rw [List.length_append] at hi
      rw [dif_pos (by omega), List.getElem_append_right hle]
  top := by
    show max b.top (b.ptrHd + s.length + 1) ≤ _
    rw [h.ptrHd, List.length_append]
    exact Nat.max_le.mpr ⟨Nat.le_trans h.top (by omega), Nat.le_refl _⟩

/-- What a `sprintf` leaves for `%s` -/
theorem HdBuffer.Holds.string (h : b.Holds text) (s : List Char)
    (hnul : '\x00' ∉ text ++ s) :
    (b.sprintf s).string = text ++ s ∧ (b.sprintf s).top = (text ++ s).length + 1 := by
  have hs := h.sprintf s
  have htop : (b.sprintf s).top = (text ++ s).length + 1 := by
    refine Nat.le_antisymm hs.top ?_
    rw [List.length_append, ← h.ptrHd]
    exact Nat.le_max_right ..
  have hend : (b.sprintf s).chars (text ++ s).length = '\x00' := by
    rw [List.length_append, ← h.ptrHd]
    show (if _ then _ else _) = _
    rw [if_neg (by omega), dif_neg (by omega), if_pos rfl]
  refine ⟨?_, htop⟩
  rw [HdBuffer.string, htop, List.range_succ, List.map_append, hs.chars, List.map_singleton, hend,
    List.takeWhile_append_of_pos]
  · exact List.append_nil _
  · exact fun c hc => decide_eq_true fun heq => hnul (heq ▸ hc)

/-- A loop of `sprintf` -/
theorem HdBuffer.Holds.foldl {step : HdBuffer → Nat → HdBuffer} {f : Nat → List Char}
    (hstep : ∀ b text i, b.Holds text → (step b i).Holds (text ++ f i)) (h : b.Holds text)
    (l : List Nat) : (l.foldl step b).Holds (text ++ l.flatMap f) := by
  induction l generalizing b text with
  | nil =>
    rw [List.flatMap_nil, List.append_nil]
    exact h
  | cons i l ih =>
    rw [List.foldl_cons, List.flatMap_cons, ← List.append_assoc]
    exact ih (hstep b text i h)

end Holds

/-- What the loop prints for byte `i` of a line -/
def cell (bytes : List UInt8) (i : Nat) : List Char :=
  (if i % 8 = 0 then [' '] else []) ++ match bytes[i]? with
    | some byte => ' ' :: hexDigits byte
    | none => [' ', ' ', ' ']

/-- The text of a line -/
def lineText (marker : Char) (address : List Char) (bytes : List UInt8) : List Char :=
  (marker :: address ++ [' ']) ++ (List.range bytesPerLine).flatMap (cell bytes) ++
    [' ', ' ', '|'] ++ bytes.map printable ++ ['|']

/-- One round of the loop writes one cell. -/
theorem hexCell_holds {ptrLine : Nat → UInt8} {n : Nat} {b : HdBuffer} {text : List Char} {i : Nat}
    (h : b.Holds text) :
    (hexCell ptrLine n b i).Holds (text ++ cell ((List.range n).map ptrLine) i) := by
  have hgap : (if i &&& 7 = 0 then b.sprintf [' '] else b).Holds
      (text ++ if i % 8 = 0 then [' '] else []) := by
    rw [show i &&& 7 = i % 8 from Nat.and_two_pow_sub_one_eq_mod i 3]
    split
    · exact h.sprintf _
    · rw [List.append_nil]
      exact h
  rw [hexCell, cell, List.getElem?_map, ← List.append_assoc]
  split
  · rename_i hlt
    rw [List.getElem?_range hlt]
    exact hgap.sprintf _
  · rename_i hle
    rw [List.getElem?_eq_none (by rw [List.length_range]; exact Nat.not_lt.mp hle)]
    exact hgap.sprintf _

/-- A hexadecimal digit is not the NUL character. -/
theorem digitChar_ne_nul : ∀ n < 16, Nat.digitChar n ≠ '\x00' := by decide

/-- Two hexadecimal digits contain no NUL. -/
theorem hexDigits_noNul (byte : UInt8) : '\x00' ∉ hexDigits byte := by
  have hlt := byte.toNat_lt
  intro hmem
  rcases List.mem_pair.mp hmem with heq | heq
  · exact digitChar_ne_nul (byte.toNat / 16) (by omega) heq.symm
  · exact digitChar_ne_nul (byte.toNat % 16) (by omega) heq.symm

/-- A byte is printed as a character other than NUL. -/
theorem printable_ne_nul (byte : UInt8) : printable byte ≠ '\x00' := by
  rw [printable]
  split
  · rename_i hprint
    rw [isprint, Bool.and_eq_true, decide_eq_true_eq] at hprint
    have hle : 0x20 ≤ byte.toNat := hprint.1
    have hlt := byte.toNat_lt
    have hval : (Char.ofNat byte.toNat).toNat = byte.toNat := by
      rw [Char.ofNat, dif_pos (Or.inl (by omega))]
      rfl
    intro heq
    rw [heq] at hval
    exact absurd hval.symm (Nat.ne_of_gt (Nat.lt_of_lt_of_le (by decide) hle))
  · decide

/-- A line contains no NUL, so it ends where its text ends. -/
theorem lineText_noNul {p : PointerText} {a : UInt32} {marker : Char} {bytes : List UInt8}
    (hmarker : marker ≠ '\x00') : '\x00' ∉ lineText marker (p.text a) bytes := by
  have hcells : '\x00' ∉ (List.range bytesPerLine).flatMap (cell bytes) := by
    intro hmem
    obtain ⟨i, -, hmem⟩ := List.mem_flatMap.mp hmem
    rw [cell] at hmem
    rcases List.mem_append.mp hmem with hmem | hmem
    · split at hmem
      · exact absurd hmem (by decide)
      · exact List.not_mem_nil hmem
    · split at hmem
      · rcases List.mem_cons.mp hmem with heq | hmem
        · exact absurd heq (by decide)
        · exact hexDigits_noNul _ hmem
      · exact absurd hmem (by decide)
  have hchars : '\x00' ∉ bytes.map printable := by
    intro hmem
    obtain ⟨byte, -, heq⟩ := List.mem_map.mp hmem
    exact printable_ne_nul byte heq
  have haddress := p.noNul a
  rw [lineText]
  simp only [List.mem_append, List.mem_cons, not_or]
  refine ⟨⟨⟨⟨⟨⟨hmarker.symm, haddress⟩, ?_⟩, hcells⟩, ?_⟩, hchars⟩, ?_⟩ <;> decide

/-- A line is its text. -/
theorem hexdumpLine_eq (p : PointerText) (ptrLine : Nat → UInt8) (startBuffMarker : Bool)
    (buffer : UInt32) (n : Nat) :
    (hexdumpLine p ptrLine startBuffMarker buffer n).text =
        lineText (if startBuffMarker then '>' else ' ') (p.text buffer)
          ((List.range n).map ptrLine) ∧
      (hexdumpLine p ptrLine startBuffMarker buffer n).top =
        (lineText (if startBuffMarker then '>' else ' ') (p.text buffer)
          ((List.range n).map ptrLine)).length + 1 := by
  have hmarker : (if startBuffMarker then '>' else ' ') ≠ '\x00' := by
    cases startBuffMarker <;> decide
  have hstart := (HdBuffer.holds_nil fun _ => '?').sprintf
    ((if startBuffMarker then '>' else ' ') :: p.text buffer ++ [' '])
  have hcell : ∀ b text i, HdBuffer.Holds b text → (hexCell ptrLine n b i).Holds
      (text ++ cell ((List.range n).map ptrLine) i) := fun _ _ _ h => hexCell_holds h
  have hchar : ∀ b text i, HdBuffer.Holds b text →
      (b.sprintf [printable (ptrLine i)]).Holds (text ++ [printable (ptrLine i)]) :=
    fun _ _ _ h => h.sprintf _
  have hhex := hstart.foldl hcell (List.range bytesPerLine)
  have hchars := (hhex.sprintf [' ', ' ', '|']).foldl hchar (List.range n)
  have hmap : (List.range n).flatMap (fun i => [printable (ptrLine i)]) =
      ((List.range n).map ptrLine).map printable := by
    rw [List.map_map, List.map_eq_flatMap]
    rfl
  rw [hmap] at hchars
  exact hchars.string ['|'] (lineText_noNul hmarker)

/-! ## The columns of a line -/

section Columns

/-- The piece in the middle -/
theorem take_drop_middle {α : Type*} (xs ys zs : List α) :
    ((xs ++ ys ++ zs).drop xs.length).take ys.length = ys := by
  rw [List.append_assoc, List.drop_left, List.take_left]

/-- The text of cell `i` stands behind that of the cells before it. -/
theorem flatMap_range_split {α : Type*} (f : Nat → List α) {i n : Nat} (h : i < n) :
    ∃ rest, (List.range n).flatMap f = (List.range i).flatMap f ++ f i ++ rest := by
  induction n with
  | zero => exact absurd h (Nat.not_lt_zero i)
  | succ n ih =>
    rw [List.range_succ, List.flatMap_append, List.flatMap_singleton]
    rcases Nat.lt_succ_iff_lt_or_eq.mp h with hlt | rfl
    · obtain ⟨rest, hrest⟩ := ih hlt
      rw [hrest]
      exact ⟨rest ++ f n, List.append_assoc ..⟩
    · exact ⟨[], (List.append_nil _).symm⟩

variable (address : List Char) (bytes : List UInt8) (marker : Char)

/-- A cell has three characters, and a fourth before each group of eight. -/
theorem cell_length (i : Nat) : (cell bytes i).length = if i % 8 = 0 then 4 else 3 := by
  have hcell : ∀ o : Option UInt8, (match o with
      | some byte => ' ' :: hexDigits byte
      | none => [' ', ' ', ' ']).length = 3 := by
    intro o
    cases o <;> rfl
  rw [cell, List.length_append, hcell]
  split <;> rfl

/-- The columns of the first `k` bytes: a group begins at every eighth. -/
theorem cells_length (k : Nat) :
    ((List.range k).flatMap (cell bytes)).length = 3 * k + (k + 7) / 8 := by
  induction k with
  | zero => rfl
  | succ k ih =>
    rw [List.range_succ, List.flatMap_append, List.length_append, ih, List.flatMap_singleton,
      cell_length]
    split <;> omega

/-- The length of a line depends on the address and on the number of its bytes. -/
theorem lineText_length :
    (lineText marker address bytes).length = address.length + bytes.length + 56 := by
  rw [lineText]
  simp only [List.length_append, cells_length, List.length_map, List.length_cons, List.length_nil]
  show address.length + 1 + 1 + (3 * 16 + (16 + 7) / 8) + 3 + bytes.length + 1 = _
  omega

/-- A line shows its address, its bytes in two columns of eight, and its characters. -/
theorem lineText_shows (hle : bytes.length ≤ bytesPerLine) :
    Shows address bytes (lineText marker address bytes) where
  starts := by
    simp only [lineText, List.append_assoc, List.cons_append]
    exact List.take_left
  hex i byte hbyte := by
    obtain ⟨hi, -⟩ := List.getElem?_eq_some_iff.mp hbyte
    obtain ⟨rest, hcells⟩ := flatMap_range_split (cell bytes) (Nat.lt_of_lt_of_le hi hle)
    -- what stands before the digits
    obtain ⟨gap, hgap, hcell⟩ : ∃ gap : List Char, gap.length = (if i % 8 = 0 then 2 else 1) ∧
        cell bytes i = gap ++ hexDigits byte := by
      refine ⟨(if i % 8 = 0 then [' '] else []) ++ [' '], ?_, ?_⟩
      · split <;> rfl
      · rw [cell, hbyte]
        split <;> rfl
    have hline : lineText marker address bytes =
        ((marker :: address ++ [' ']) ++ (List.range i).flatMap (cell bytes) ++ gap) ++
          hexDigits byte ++ (rest ++ ([' ', ' ', '|'] ++ (bytes.map printable ++ ['|']))) := by
      rw [lineText, hcells, hcell]
      simp only [List.append_assoc]
    have hlength : ((marker :: address ++ [' ']) ++ (List.range i).flatMap (cell bytes) ++
        gap).length = hexColumn address.length i := by
      simp only [List.length_append, cells_length, hgap, List.length_cons, List.length_nil]
      rw [hexColumn]
      split <;> omega
    rw [hline, ← hlength]
    exact take_drop_middle _ (hexDigits byte) _
  char i byte hbyte := by
    obtain ⟨hi, -⟩ := List.getElem?_eq_some_iff.mp hbyte
    have hlength : ((marker :: address ++ [' ']) ++
        (List.range bytesPerLine).flatMap (cell bytes) ++ [' ', ' ', '|']).length =
      address.length + 55 := by
      simp only [List.length_append, cells_length, List.length_cons, List.length_nil]
      show address.length + 1 + 1 + (3 * 16 + (16 + 7) / 8) + 3 = _
      omega
    rw [lineText, charColumn, List.append_assoc, ← hlength, List.getElem?_append_right (by omega),
      Nat.add_sub_cancel_left, List.getElem?_append_left (by rwa [List.length_map]),
      List.getElem?_map, hbyte]
    rfl

end Columns

/-! ## The whole dump -/

section Dump

variable {p : PointerText} {memory : UInt32 → UInt8}

/-- As many bytes as asked for -/
theorem bytesAt_length (buffer : UInt32) (n : Nat) : (bytesAt memory buffer n).length = n := by
  rw [bytesAt, List.length_map, List.length_range]

/-- Bytes at consecutive addresses -/
theorem bytesAt_add (buffer : UInt32) (m n : Nat) : bytesAt memory buffer (m + n) =
    bytesAt memory buffer m ++ bytesAt memory (buffer + .ofNat m) n := by
  rw [bytesAt, bytesAt, bytesAt, List.range_add, List.map_append, List.map_map]
  congr 1
  refine List.map_congr_left fun i _ => ?_
  show memory (buffer + .ofNat (m + i)) = memory (buffer + .ofNat m + .ofNat i)
  rw [UInt32.ofNat_add, UInt32.add_assoc]

/-- The line of `n` bytes from `buffer` on -/
theorem hexdumpLine_shows (marker : Bool) (buffer : UInt32) {n : Nat} (hn : n ≤ bytesPerLine) :
    Shows (p.text buffer) (bytesAt memory buffer n)
      (hexdumpLine p (fun i => memory (buffer + .ofNat i)) marker buffer n).text := by
  rw [(hexdumpLine_eq ..).1]
  exact lineText_shows _ _ _ (by rwa [bytesAt_length])

/-- A line fits the buffer if address and bytes have at most 25 characters together. -/
theorem hexdumpLine_fits (marker : Bool) (buffer : UInt32) (n : Nat) :
    (hexdumpLine p (fun i => memory (buffer + .ofNat i)) marker buffer n).top ≤ hdBufferSize ↔
      (p.text buffer).length + n ≤ 25 := by
  rw [(hexdumpLine_eq ..).2, lineText_length, List.length_map, List.length_range]
  show _ ≤ 82 ↔ _
  omega

/-- The last turn of the loop, and one that is not the last -/
theorem hexdumpLoop_last {buffLen : UInt16} (hle : buffLen.toNat ≤ bytesPerLine) (buffer : UInt32)
    (marker : Bool) : hexdumpLoop p memory buffer buffLen marker =
      [hexdumpLine p (fun i => memory (buffer + .ofNat i)) marker buffer buffLen.toNat] := by
  have hsub := sub_curLine_toNat buffLen
  have hzero : buffLen - curLine buffLen = 0 :=
    UInt16.toNat_inj.mp (hsub.trans (Nat.sub_eq_zero_of_le hle))
  rw [hexdumpLoop, if_pos hzero, curLine_toNat, Nat.min_eq_right hle]

/-- The loop writes a full line and goes on behind it. -/
theorem hexdumpLoop_more {buffLen : UInt16} (hlt : bytesPerLine < buffLen.toNat) (buffer : UInt32)
    (marker : Bool) : ∃ rest : UInt16, rest.toNat = buffLen.toNat - bytesPerLine ∧
      hexdumpLoop p memory buffer buffLen marker =
        hexdumpLine p (fun i => memory (buffer + .ofNat i)) marker buffer bytesPerLine ::
          hexdumpLoop p memory (buffer + 16) rest false := by
  have hsub := sub_curLine_toNat buffLen
  have hne : buffLen - curLine buffLen ≠ 0 := fun hzero => by
    rw [hzero] at hsub
    exact absurd hsub.symm (Nat.sub_ne_zero_of_lt hlt)
  have hcur : curLine buffLen = 16 :=
    UInt16.toNat_inj.mp ((curLine_toNat buffLen).trans (Nat.min_eq_left (Nat.le_of_lt hlt)))
  refine ⟨buffLen - curLine buffLen, hsub, ?_⟩
  rw [hexdumpLoop, if_neg hne, hcur]
  rfl

/-- The lines of the loop cover the bytes, by strong induction on how many are left. -/
theorem hexdumpLoop_covers {n : Nat} : ∀ (buffer : UInt32) (buffLen : UInt16) (marker : Bool),
    buffLen.toNat = n + 1 →
      Covers p buffer (bytesAt memory buffer (n + 1))
        (hexdumpLoop p memory buffer buffLen marker) := by
  induction n using Nat.strongRecOn with
  | _ n ih =>
    intro buffer buffLen marker hlen
    rcases Nat.lt_or_ge bytesPerLine buffLen.toNat with hlt | hle
    · obtain ⟨rest, hrest, hloop⟩ := @hexdumpLoop_more p memory _ hlt buffer marker
      rw [bytesPerLine] at hlt hrest
      have hsplit : n + 1 = bytesPerLine + (n - 16 + 1) := by
        rw [bytesPerLine]
        omega
      rw [hloop, hsplit, bytesAt_add]
      have hcovers := ih (n - 16) (by omega) (buffer + 16) rest false (by omega)
      refine .line _ _ _ _ _ ?_ ?_ ?_ (hexdumpLine_shows _ _ (Nat.le_refl _)) hcovers
      · exact List.ne_nil_of_length_pos (by rw [bytesAt_length]; decide)
      · exact Nat.le_of_eq (bytesAt_length ..)
      · exact fun _ => bytesAt_length ..
    · rw [hexdumpLoop_last hle, hlen, ← List.append_nil (bytesAt memory buffer (n + 1))]
      have hn : n + 1 ≤ bytesPerLine := hlen ▸ hle
      refine .line _ _ _ _ _ ?_ ?_ ?_ (hexdumpLine_shows _ _ hn) (.done _)
      · exact List.ne_nil_of_length_pos (by rw [bytesAt_length]; exact Nat.succ_pos n)
      · rwa [bytesAt_length]
      · exact fun hne => absurd rfl hne

/-- A line of sixteen bytes fits if its address has nine characters; a shorter one always does. -/
theorem hexdumpLoop_fits {n : Nat} : ∀ (buffer : UInt32) (buffLen : UInt16) (marker : Bool),
    buffLen.toNat = n →
      ((∀ line ∈ hexdumpLoop p memory buffer buffLen marker, line.top ≤ hdBufferSize) ↔
        ∀ k < n / 16, (p.text (buffer + .ofNat (16 * k))).length ≤ 9) := by
  induction n using Nat.strongRecOn with
  | _ n ih =>
    intro buffer buffLen marker hlen
    have hzero : buffer + .ofNat (16 * 0) = buffer := UInt32.add_zero _
    have haddress := p.length_le buffer
    rcases Nat.lt_or_ge bytesPerLine buffLen.toNat with hlt | hle
    · obtain ⟨rest, hrest, hloop⟩ := @hexdumpLoop_more p memory _ hlt buffer marker
      rw [bytesPerLine] at hlt hrest
      have hdiv : n / 16 = (n - 16) / 16 + 1 := by omega
      have hshift : ∀ k, buffer + 16 + .ofNat (16 * k) = buffer + UInt32.ofNat (16 * (k + 1)) := by
        intro k
        rw [Nat.mul_succ, Nat.add_comm, UInt32.ofNat_add, UInt32.add_assoc]
        rfl
      rw [hloop, List.forall_mem_cons, hexdumpLine_fits, hdiv, Nat.forall_lt_succ_left,
        ih (n - 16) (by omega) (buffer + 16) rest false (by omega), hzero]
      simp only [hshift]
      rw [bytesPerLine]
      refine and_congr_left' ?_
      omega
    · rw [hexdumpLoop_last hle, List.forall_mem_singleton, hexdumpLine_fits, hlen]
      rw [bytesPerLine] at hle
      constructor
      · intro hfits k hk
        have hk0 : k = 0 := by omega
        rw [hk0, hzero]
        omega
      · intro hall
        by_cases hfull : n = 16
        · have h0 := hall 0 (by omega)
          rw [hzero] at h0
          omega
        · omega

/-- The lines of `esp_log_buffer_hexdump_internal` cover the buffer. -/
theorem hexdump_covers (p : PointerText) (memory : UInt32 → UInt8) (buffer : UInt32)
    (buffLen : UInt16) : Covers p buffer (bytesAt memory buffer buffLen.toNat)
      (espLogBufferHexdumpInternal p memory buffer buffLen) := by
  rw [espLogBufferHexdumpInternal]
  split
  · rename_i hzero
    rw [hzero]
    exact .done buffer
  · rename_i hne
    have hpos : buffLen.toNat ≠ 0 := fun hzero => hne (UInt16.toNat_inj.mp hzero)
    obtain ⟨n, hn⟩ := Nat.exists_eq_succ_of_ne_zero hpos
    rw [hn]
    exact hexdumpLoop_covers buffer buffLen true hn

/-- All lines fit if the full ones and the last one do. -/
theorem hexdump_fits (p : PointerText) (memory : UInt32 → UInt8) (buffer : UInt32)
    (buffLen : UInt16) :
    (∀ line ∈ espLogBufferHexdumpInternal p memory buffer buffLen, line.top ≤ hdBufferSize) ↔
      ∀ k < buffLen.toNat / 16, (p.text (buffer + .ofNat (16 * k))).length ≤ 9 := by
  rw [espLogBufferHexdumpInternal]
  split
  · rename_i hzero
    rw [hzero]
    constructor
    · exact fun _ k hk => absurd hk (Nat.not_lt_zero k)
    · exact fun _ line hline => (List.not_mem_nil hline).elim
  · exact hexdumpLoop_fits buffer buffLen true rfl

end Dump

/-- Every dump covers the bytes; its lines fit exactly when the addresses of those with sixteen
bytes have nine characters at most. -/
theorem dumped_iff (p : PointerText) (memory : UInt32 → UInt8) (buffer : UInt32)
    (buffLen : UInt16) :
    Dumped p memory buffer buffLen (espLogBufferHexdumpInternal p memory buffer buffLen) ↔
      ∀ k < buffLen.toNat / 16, (p.text (buffer + .ofNat (16 * k))).length ≤ 9 := by
  rw [← hexdump_fits p memory]
  exact ⟨Dumped.fits, fun hfits => ⟨hexdump_covers p memory buffer buffLen, hfits⟩⟩

/-- The prefix `0x` and eight digits -/
def eightDigits : PointerText where
  text a := '0' :: 'x' :: (List.range 8).reverse.map fun i =>
    Nat.digitChar (a.toNat / 16 ^ i % 16)
  length_le a := by simp
  noNul a := by
    simp only [List.mem_cons, List.mem_map, not_or, not_exists, not_and]
    refine ⟨by decide, by decide, fun i _ => digitChar_ne_nul _ (Nat.mod_lt _ (by decide))⟩

/-- Sixteen bytes at 0x20000000 -/
theorem not_dumped : ¬ Dumped eightDigits (fun _ => 0x41) 0x20000000 16
    (espLogBufferHexdumpInternal eightDigits (fun _ => 0x41) 0x20000000 16) := by
  intro dumped
  have haddress := (hexdump_fits ..).mp dumped.fits 0 (by decide)
  exact absurd haddress (by decide)

end PicoHost.Log
