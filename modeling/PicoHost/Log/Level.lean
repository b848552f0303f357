import Mathlib.Data.List.Induction
import PicoHost.Lib.LastMatch

/-!
# Log levels (`tag_log_level.c`, `log_linked_list.c`, `os_wrapper.c`)

`esp_log_level_set` keeps one level for each tag in a linked list; the tag `"*"`
empties the list and sets the master level. What a history of calls asks for is
`effective`: the last level of the tag since the last `"*"`, else the level of
that `"*"`, else the configured default.

The state always holds this level (`level_of_after`). `esp_log_level_get` does not
return it: for a tag that is not in the list it asks `esp_log_get_default_level`,
which returns the configured default and not the master level.
-/

namespace PicoHost.Log

open LastMatch

/-! ## The code -/

/-- `esp_log_level_t` (esp_log.h:31–38) -/
inductive LogLevel where
  | none | error | warn | info | debug | verbose
deriving DecidableEq, Repr

/-- The value of the enumeration constant. -/
def LogLevel.toNat : LogLevel → Nat
  | .none => 0
  | .error => 1
  | .warn => 2
  | .info => 3
  | .debug => 4
  | .verbose => 5

/-- `CONFIG_LOG_DEFAULT_LEVEL` (sdkconfig.h:393) -/
def configLogDefaultLevel : LogLevel := .info

/-- `uncached_tag_entry_t`. The level is kept as a `uint8_t`, which has room for
every level. -/
structure UncachedTagEntry where
  tag : String
  level : LogLevel
deriving DecidableEq, Repr

/-- `set_log_level` (log_linked_list.c:95–107); `none` if no entry has the tag. -/
def setLogLevel (tag : String) (level : LogLevel) :
    List UncachedTagEntry → Option (List UncachedTagEntry)
  | [] => none
  | it :: rest =>
    if it.tag = tag then some ({ it with level := level } :: rest)
    else (setLogLevel tag level rest).map (it :: ·)

/-- `add_to_list` (log_linked_list.c:79–93): the new entry becomes the head. -/
def addToList (tag : String) (level : LogLevel) (logTags : List UncachedTagEntry) :
    List UncachedTagEntry :=
  ⟨tag, level⟩ :: logTags

/-- `esp_log_linked_list_set_level` (log_linked_list.c:46–53) -/
def linkedListSetLevel (tag : String) (level : LogLevel) (logTags : List UncachedTagEntry) :
    List UncachedTagEntry :=
  match setLogLevel tag level logTags with
  | some logTags => logTags
  | none => addToList tag level logTags

/-- `esp_log_linked_list_get_level` (log_linked_list.c:57–69) -/
def linkedListGetLevel (tag : String) : List UncachedTagEntry → Option LogLevel
  | [] => none
  | it :: rest => if it.tag = tag then some it.level else linkedListGetLevel tag rest

/-- `esp_log_linked_list_clean` (log_linked_list.c:71–77): heads are removed until
none is left. -/
def linkedListClean : List UncachedTagEntry → List UncachedTagEntry
  | [] => []
  | _ :: rest => linkedListClean rest

/-- The static variables `s_master_log_level` and `s_log_tags`. -/
structure LogState where
  masterLogLevel : LogLevel
  logTags : List UncachedTagEntry
deriving DecidableEq, Repr

def LogState.initial : LogState := ⟨configLogDefaultLevel, []⟩

/-- `esp_log_get_default_level` (esp_log_level.h:15–19) -/
def getDefaultLevel : LogLevel := configLogDefaultLevel

/-- `esp_log_set_default_level` (tag_log_level.c:43–46) -/
def setDefaultLevel (s : LogState) (level : LogLevel) : LogState :=
  { s with masterLogLevel := level }

/-- `esp_log_level_set` (tag_log_level.c:17–30, 48–51) -/
def logLevelSet (s : LogState) (tag : Option String) (level : LogLevel) : LogState :=
  match tag with
  | none => s
  | some tag =>
    if tag = "*" then
      let s := setDefaultLevel s level
      { s with logTags := linkedListClean s.logTags }
    else { s with logTags := linkedListSetLevel tag level s.logTags }

/-- `esp_log_level_get` (tag_log_level.c:33–41, 53–56) -/
def logLevelGet (s : LogState) (tag : Option String) : LogLevel :=
  match tag with
  | none => getDefaultLevel
  | some tag => (linkedListGetLevel tag s.logTags).getD getDefaultLevel

/-- `hosted_log_write` (os_wrapper.c:1004–1015): whether the message is printed. -/
def hostedLogWrite (s : LogState) (level : LogLevel) (tag : Option String) : Bool :=
  let levelForTag := logLevelGet s tag
  decide (LogLevel.none ≠ levelForTag ∧ level.toNat ≤ levelForTag.toNat)

/-! ## What a history asks for -/

/-- One call of `esp_log_level_set` with a tag. -/
structure SetCall where
  tag : String
  level : LogLevel
deriving DecidableEq, Repr

/-- The state after a history of calls, first to last. -/
def after (calls : List SetCall) : LogState :=
  calls.foldl (fun s call => logLevelSet s (some call.tag) call.level) LogState.initial

/-- The level of the last call for a tag. -/
def lastLevel (tag : String) (calls : List SetCall) : Option LogLevel :=
  (splitLast (fun call => decide (call.tag = tag)) calls).map fun found => found.2.1.level

/-- The calls after the last one for `"*"`. -/
def sinceWildcard (calls : List SetCall) : List SetCall :=
  match splitLast (fun call => decide (call.tag = "*")) calls with
  | none => calls
  | some (_, _, later) => later

/-- The level that a history gives a tag. -/
def effective (calls : List SetCall) (tag : String) : LogLevel :=
  (lastLevel tag (sinceWildcard calls)).getD
    ((lastLevel "*" calls).getD configLogDefaultLevel)

/-- A level admits the messages at it and below, and no message if it is none. -/
def LogLevel.Admits (effective level : LogLevel) : Prop :=
  effective ≠ .none ∧ level.toNat ≤ effective.toNat

section Histories

/-- A call more replaces the level of its tag. -/
theorem lastLevel_concat (tag : String) (calls : List SetCall) (call : SetCall) :
    lastLevel tag (calls ++ [call]) =
      if call.tag = tag then some call.level else lastLevel tag calls := by
  rw [lastLevel, splitLast_concat]
  by_cases h : call.tag = tag
  · simp [h]
  · simp [h, lastLevel, Function.comp_def]

/-- A tag has a level once it was set. -/
theorem lastLevel_ne_none_iff {tag : String} {calls : List SetCall} :
    lastLevel tag calls ≠ none ↔ ∃ call ∈ calls, call.tag = tag := by
  rw [lastLevel]
  cases h : splitLast (fun call : SetCall => decide (call.tag = tag)) calls with
  | none =>
    have hnone := splitLast_eq_none h
    constructor
    · intro hne
      exact absurd rfl hne
    · rintro ⟨call, hcall, htag⟩
      exact absurd htag (of_decide_eq_false (hnone call hcall))
  | some found =>
    obtain ⟨hl, hmatch, -⟩ := splitLast_eq_some (x := found.2.1) h
    constructor
    · intro _
      refine ⟨found.2.1, ?_, of_decide_eq_true hmatch⟩
      rw [hl]
      exact List.mem_append_right _ (List.mem_cons_self ..)
    · intro _ hnone
      cases hnone

/-- The calls since the last one for `"*"` -/
theorem sinceWildcard_concat (calls : List SetCall) (call : SetCall) :
    sinceWildcard (calls ++ [call]) =
      if call.tag = "*" then [] else sinceWildcard calls ++ [call] := by
  rw [sinceWildcard, splitLast_concat]
  by_cases h : call.tag = "*"
  · simp [h]
  · simp only [h, decide_false, sinceWildcard]
    cases splitLast (fun call : SetCall => decide (call.tag = "*")) calls with
    | none => rfl
    | some found => rfl

end Histories

/-! ## The linked list -/

section LinkedList

variable {tag tag' : String} {level : LogLevel}

/-- Cleaning leaves no entry. -/
theorem linkedListClean_eq_nil (logTags : List UncachedTagEntry) :
    linkedListClean logTags = [] := by
  induction logTags with
  | nil => rfl
  | cons it rest ih => exact ih

/-- An update in place is seen for its own tag, and for no other. -/
theorem get_setLogLevel {logTags logTags' : List UncachedTagEntry}
    (h : setLogLevel tag level logTags = some logTags') :
    linkedListGetLevel tag' logTags' =
      if tag = tag' then some level else linkedListGetLevel tag' logTags := by
  induction logTags generalizing logTags' with
  | nil => cases h
  | cons it rest ih =>
    rw [setLogLevel] at h
    by_cases hit : it.tag = tag
    -- the entry that is updated
    · rw [if_pos hit] at h
      cases h
      by_cases htag : tag = tag' <;> simp [linkedListGetLevel, hit, htag]
    · rw [if_neg hit] at h
      obtain ⟨rest', hrest, rfl⟩ := Option.map_eq_some_iff.mp h
      rw [linkedListGetLevel, linkedListGetLevel, ih hrest]
      by_cases hit' : it.tag = tag'
      · have htag : tag ≠ tag' := by
          intro heq
          exact hit (hit'.trans heq.symm)
        simp [hit', htag]
      · simp [hit']

/-- The level of a tag is the one that was set last. -/
theorem get_linkedListSetLevel (logTags : List UncachedTagEntry) :
    linkedListGetLevel tag' (linkedListSetLevel tag level logTags) =
      if tag = tag' then some level else linkedListGetLevel tag' logTags := by
  rw [linkedListSetLevel]
  cases h : setLogLevel tag level logTags with
  | some logTags' => exact get_setLogLevel h
  | none => rfl

end LinkedList

/-! ## The state after a history -/

/-- The list holds the last level of each tag since the last `"*"`, and the master
level is the level of that call. -/
structure Holds (calls : List SetCall) (s : LogState) : Prop where
  master : s.masterLogLevel = (lastLevel "*" calls).getD configLogDefaultLevel
  tags : ∀ tag, linkedListGetLevel tag s.logTags = lastLevel tag (sinceWildcard calls)

/-- A call keeps the list in step with the calls. -/
theorem Holds.set {calls : List SetCall} {s : LogState} (h : Holds calls s) (call : SetCall) :
    Holds (calls ++ [call]) (logLevelSet s (some call.tag) call.level) := by
  by_cases hstar : call.tag = "*"
  -- the list is emptied, and the history begins anew
  · constructor
    · simp [logLevelSet, setDefaultLevel, lastLevel_concat, hstar]
    · intro tag
      rw [sinceWildcard_concat, if_pos hstar]
      simp only [logLevelSet, setDefaultLevel, hstar, if_true, linkedListClean_eq_nil]
      rfl
  · constructor
    · rw [lastLevel_concat, if_neg hstar, ← h.master]
      simp [logLevelSet, hstar]
    · intro tag
      rw [sinceWildcard_concat, if_neg hstar, lastLevel_concat, ← h.tags]
      simp only [logLevelSet, hstar, if_false, get_linkedListSetLevel]

/-- After any calls the list is in step with them. -/
theorem after_holds (calls : List SetCall) : Holds calls (after calls) := by
  induction calls using List.reverseRecOn with
  | nil => exact ⟨rfl, fun _ => rfl⟩
  | append_singleton calls call ih =>
    have hstep : after (calls ++ [call]) =
        logLevelSet (after calls) (some call.tag) call.level := List.foldl_append
    rw [hstep]
    exact ih.set call

/-- The state holds the level of every tag: it is the master level where the list
has no entry. -/
theorem level_of_after (calls : List SetCall) (tag : String) :
    (linkedListGetLevel tag (after calls).logTags).getD (after calls).masterLogLevel =
      effective calls tag := by
  rw [(after_holds calls).tags, (after_holds calls).master]
  rfl

/-- `esp_log_level_get` reads the list alone. -/
theorem logLevelGet_after (calls : List SetCall) (tag : String) :
    logLevelGet (after calls) (some tag) =
      (lastLevel tag (sinceWildcard calls)).getD configLogDefaultLevel := by
  rw [← (after_holds calls).tags]
  rfl

/-- A line is written if the level of its tag admits it. -/
theorem hostedLogWrite_iff (s : LogState) (level : LogLevel) (tag : Option String) :
    hostedLogWrite s level tag = true ↔ (logLevelGet s tag).Admits level := by
  rw [hostedLogWrite, decide_eq_true_iff, LogLevel.Admits, ne_comm]

/-- The code agrees with the history where the list has an entry, or where the two
defaults are the same. -/
theorem logLevelGet_eq_effective_iff (calls : List SetCall) (tag : String) :
    logLevelGet (after calls) (some tag) = effective calls tag ↔
      lastLevel tag (sinceWildcard calls) ≠ none ∨
        ∀ level, lastLevel "*" calls = some level → level = configLogDefaultLevel := by
  rw [logLevelGet_after, effective]
  cases htag : lastLevel tag (sinceWildcard calls) with
  | some level => simp
  | none =>
    cases hstar : lastLevel "*" calls with
    | none => simp
    | some level => simp [eq_comm]

/-- The level returned and the messages printed are those of the effective level
exactly if the tag has been set since the last `"*"`, or that call set the default. -/
theorem logLevelGet_effective_iff (calls : List SetCall) (tag : String) :
    (logLevelGet (after calls) (some tag) = effective calls tag ∧
      ∀ level, hostedLogWrite (after calls) level (some tag) = true ↔
        (effective calls tag).Admits level) ↔
    ((∃ call ∈ sinceWildcard calls, call.tag = tag) ∨
      ∀ level, lastLevel "*" calls = some level → level = configLogDefaultLevel) := by
  rw [← lastLevel_ne_none_iff, ← logLevelGet_eq_effective_iff]
  constructor
  · intro h
    exact h.1
  · intro h
    refine ⟨h, fun level => ?_⟩
    rw [hostedLogWrite_iff, h]

/-- After `"*"` has been set to errors only, warnings are still printed. -/
theorem logLevelGet_ignores_wildcard :
    logLevelGet (after [⟨"*", .error⟩]) (some "wifi") = .info ∧
      effective [⟨"*", .error⟩] "wifi" = .error ∧
      hostedLogWrite (after [⟨"*", .error⟩]) .warn (some "wifi") = true ∧
      ¬ (effective [⟨"*", .error⟩] "wifi").Admits .warn := by
  refine ⟨by decide, by decide, by decide, fun h => ?_⟩
  exact absurd h.2 (by decide)

end PicoHost.Log
