import Mathlib.Data.List.Basic
import Mathlib.Tactic.Basic

/-!
# Runs of a machine

- `run`: a machine that reads an input and writes an output at every step.
- `exec`: a machine whose steps may be refused; a run is a list of actions, none
  of which is refused.

The rules of this file turn a statement about one step into one about whole
runs, by induction over the list of inputs. The last section is about runs without
an end, as sequences of measures of their states.
-/

namespace PicoHost.Machine

universe u v w

variable {σ : Type u} {ι : Type v} {ω : Type w}

/-! ## Machines with outputs -/

/-- The state after the inputs, and the outputs in order. -/
def run (step : σ → ι → σ × ω) : σ → List ι → σ × List ω
  | s, [] => (s, [])
  | s, i :: is =>
    let r := run step (step s i).1 is
    (r.1, (step s i).2 :: r.2)

section Run

variable {step : σ → ι → σ × ω}

@[simp] theorem run_cons (s : σ) (i : ι) (is : List ι) :
    run step s (i :: is) = ((run step (step s i).1 is).1,
      (step s i).2 :: (run step (step s i).1 is).2) := rfl

/-- A run of two lists is one after the other. -/
theorem run_append (s : σ) (is js : List ι) :
    run step s (is ++ js) = ((run step (run step s is).1 js).1,
      (run step s is).2 ++ (run step (run step s is).1 js).2) := by
  induction is generalizing s with
  | nil => rfl
  | cons i is ih => rw [List.cons_append, run_cons, run_cons, ih]; rfl

/-- What every step preserves, every run preserves. -/
theorem run_inv {P : σ → Prop} (hstep : ∀ s i, P s → P (step s i).1) {s : σ} (hs : P s)
    (is : List ι) : P (run step s is).1 := by
  induction is generalizing s with
  | nil => exact hs
  | cons i is ih => exact ih (hstep s i hs)

/-- What every step writes in a state with the invariant, every run writes. -/
theorem run_outputs {P : σ → Prop} {Q : ω → Prop} (hstep : ∀ s i, P s → P (step s i).1)
    (hout : ∀ s i, P s → Q (step s i).2) {s : σ} (hs : P s) (is : List ι) :
    ∀ o ∈ (run step s is).2, Q o := by
  induction is generalizing s with
  | nil =>
    intro o ho
    cases ho
  | cons i is ih =>
    intro o ho
    rcases List.mem_cons.mp ho with rfl | ho
    · exact hout s i hs
    · exact ih (hstep s i hs) o ho

end Run

/-! ## Machines whose steps may be refused -/

/-- The state after the actions, `none` if one of them is refused. -/
def exec (step : σ → ι → Option σ) : σ → List ι → Option σ
  | s, [] => some s
  | s, i :: is => (step s i).bind fun s' => exec step s' is

section Exec

variable {step : σ → ι → Option σ}

@[simp] theorem exec_nil (s : σ) : exec step s [] = some s := rfl

/-- A run takes its first step and goes on. -/
theorem exec_cons_some {s t : σ} {i : ι} {is : List ι} :
    exec step s (i :: is) = some t ↔ ∃ s', step s i = some s' ∧ exec step s' is = some t :=
  Option.bind_eq_some_iff

/-- A run of two lists passes through a state between them. -/
theorem exec_append_some {s t : σ} {is js : List ι} :
    exec step s (is ++ js) = some t ↔
      ∃ s', exec step s is = some s' ∧ exec step s' js = some t := by
  induction is generalizing s with
  | nil =>
    constructor
    · exact fun h => ⟨s, rfl, h⟩
    · rintro ⟨s', hs', h⟩
      cases hs'
      exact h
  | cons i is ih =>
    rw [List.cons_append, exec_cons_some]
    constructor
    · rintro ⟨u, hu, h⟩
      obtain ⟨s', hs', h⟩ := ih.mp h
      exact ⟨s', exec_cons_some.mpr ⟨u, hu, hs'⟩, h⟩
    · rintro ⟨s', hs', h⟩
      obtain ⟨u, hu, hs'⟩ := exec_cons_some.mp hs'
      exact ⟨u, hu, ih.mpr ⟨s', hs', h⟩⟩

/-- Where no step is refused, no run is. -/
theorem exec_total (hstep : ∀ s i, ∃ s', step s i = some s') (s : σ) (is : List ι) :
    ∃ t, exec step s is = some t := by
  induction is generalizing s with
  | nil => exact ⟨s, rfl⟩
  | cons i is ih =>
    obtain ⟨s', hs'⟩ := hstep s i
    obtain ⟨t, ht⟩ := ih s'
    exact ⟨t, exec_cons_some.mpr ⟨s', hs', ht⟩⟩

/-- What every accepted step of some kind preserves, every run of such steps preserves. -/
theorem exec_inv_of {P : σ → Prop} {Q : ι → Prop}
    (hstep : ∀ s i s', Q i → step s i = some s' → P s → P s') {s t : σ} {is : List ι}
    (h : exec step s is = some t) (hQ : ∀ i ∈ is, Q i) (hs : P s) : P t := by
  induction is generalizing s with
  | nil =>
    cases h
    exact hs
  | cons i is ih =>
    obtain ⟨s', hi, h⟩ := exec_cons_some.mp h
    have hrest : ∀ j ∈ is, Q j := fun j hj => hQ j (List.mem_cons_of_mem i hj)
    exact ih h hrest (hstep s i s' (hQ i (List.mem_cons_self ..)) hi hs)

/-- What every accepted step preserves, every run preserves. -/
theorem exec_inv {P : σ → Prop} (hstep : ∀ s i s', step s i = some s' → P s → P s')
    {s t : σ} {is : List ι} (h : exec step s is = some t) (hs : P s) : P t :=
  exec_inv_of (Q := fun _ => True) (fun s i s' _ => hstep s i s') h (fun _ _ => trivial) hs

/-- Every step of the run meets a condition on its state and its action. -/
def Along (step : σ → ι → Option σ) (P : σ → ι → Prop) : σ → List ι → Prop
  | _, [] => True
  | s, i :: is => P s i ∧ match step s i with
    | none => True
    | some s' => Along step P s' is

instance decidableAlong {P : σ → ι → Prop} [∀ s i, Decidable (P s i)] :
    ∀ s is, Decidable (Along step P s is)
  | _, [] => .isTrue trivial
  | s, i :: is => by
    unfold Along
    cases step s i with
    | none => exact instDecidableAnd
    | some s' =>
      exact @instDecidableAnd _ _ _ (decidableAlong s' is)

/-- A run whose steps meet the condition, followed by another. -/
theorem Along.append {P : σ → ι → Prop} {s t : σ} {is js : List ι} (h : exec step s is = some t)
    (his : Along step P s is) (hjs : Along step P t js) : Along step P s (is ++ js) := by
  induction is generalizing s with
  | nil =>
    cases h
    exact hjs
  | cons i is ih =>
    obtain ⟨s', hi, h⟩ := exec_cons_some.mp h
    obtain ⟨hp, hrest⟩ := his
    rw [hi] at hrest
    rw [List.cons_append, Along, hi]
    exact ⟨hp, ih h hrest⟩

/-- What every step that meets the condition preserves, every run of such steps
preserves. -/
theorem exec_inv_along {P : σ → ι → Prop} {I : σ → Prop}
    (hstep : ∀ s i s', P s i → step s i = some s' → I s → I s') {s t : σ} {is : List ι}
    (h : exec step s is = some t) (hP : Along step P s is) (hs : I s) : I t := by
  induction is generalizing s with
  | nil =>
    cases h
    exact hs
  | cons i is ih =>
    obtain ⟨s', hi, h⟩ := exec_cons_some.mp h
    obtain ⟨hp, hrest⟩ := hP
    rw [hi] at hrest
    exact ih h hrest (hstep s i s' hp hi hs)

/-- The same for an invariant that also speaks of the history, as a fold over the actions. -/
theorem exec_fold_along {γ : Type*} {P : σ → ι → Prop} {I : γ → σ → Prop} {g : γ → ι → γ}
    (hstep : ∀ c s i s', P s i → step s i = some s' → I c s → I (g c i) s') {c : γ} {s t : σ}
    {is : List ι} (h : exec step s is = some t) (hP : Along step P s is) (hs : I c s) :
    I (is.foldl g c) t := by
  induction is generalizing c s with
  | nil =>
    cases h
    exact hs
  | cons i is ih =>
    obtain ⟨s', hi, h⟩ := exec_cons_some.mp h
    obtain ⟨hp, hrest⟩ := hP
    rw [hi] at hrest
    exact ih h hrest (hstep c s i s' hp hi hs)

/-- A simulation: what is folded over the actions keeps its relation to the state. -/
theorem exec_fold {γ : Type*} {I : γ → σ → Prop} {g : γ → ι → γ}
    (hstep : ∀ c s i s', step s i = some s' → I c s → I (g c i) s') {c : γ} {s t : σ}
    {is : List ι} (h : exec step s is = some t) (hs : I c s) : I (is.foldl g c) t := by
  induction is generalizing c s with
  | nil =>
    cases h
    exact hs
  | cons i is ih =>
    obtain ⟨s', hi, h⟩ := exec_cons_some.mp h
    exact ih h (hstep c s i s' hi hs)

/-- The same for an invariant that speaks of the actions so far. -/
theorem exec_history {I : List ι → σ → Prop}
    (hstep : ∀ before s i s', step s i = some s' → I before s → I (before ++ [i]) s')
    {before : List ι} {s t : σ} {is : List ι} (h : exec step s is = some t) (hs : I before s) :
    I (before ++ is) t := by
  induction is generalizing before s with
  | nil =>
    cases h
    rwa [List.append_nil]
  | cons i is ih =>
    obtain ⟨s', hi, h⟩ := exec_cons_some.mp h
    rw [List.append_cons]
    exact ih h (hstep before s i s' hi hs)

/-- A simulation of another machine: where each step is matched by a run of that machine, a run
is. -/
theorem exec_simulates {α β : Type*} {stepB : α → β → Option α} {R : σ → α → Prop}
    (hstep : ∀ s i s' b, step s i = some s' → R s b →
      ∃ js b', exec stepB b js = some b' ∧ R s' b') {s t : σ} {is : List ι} {b : α}
    (h : exec step s is = some t) (hR : R s b) :
    ∃ js b', exec stepB b js = some b' ∧ R t b' := by
  induction is generalizing s b with
  | nil =>
    cases h
    exact ⟨[], b, rfl, hR⟩
  | cons i is ih =>
    obtain ⟨s', hi, h⟩ := exec_cons_some.mp h
    obtain ⟨js, b', hjs, hR⟩ := hstep s i s' b hi hR
    obtain ⟨ks, u, hks, hu⟩ := ih h hR
    exact ⟨js ++ ks, u, exec_append_some.mpr ⟨b', hjs, hks⟩, hu⟩

/-- A projection to another machine: where each step is a step there, a run is a run. -/
theorem exec_project {α : Type*} {stepB : α → ι → Option α} {f : σ → α}
    (hstep : ∀ s i s', step s i = some s' → stepB (f s) i = some (f s')) {s t : σ} {is : List ι}
    (h : exec step s is = some t) : exec stepB (f s) is = some (f t) := by
  induction is generalizing s with
  | nil =>
    cases h
    rfl
  | cons i is ih =>
    obtain ⟨s', hi, h⟩ := exec_cons_some.mp h
    exact exec_cons_some.mpr ⟨f s', hstep s i s' hi, ih h⟩

/-- A measure that no step of some kind raises, in states with an invariant, and that certain ones
lower, bounds how many of these there are in a run. -/
theorem exec_countP_of {μ : σ → Nat} {P : σ → Prop} {Q : ι → Prop} {p : ι → Bool}
    (hstep : ∀ s i s', Q i → step s i = some s' → P s → P s' ∧ μ s' + (p i).toNat ≤ μ s) {s t : σ}
    {is : List ι} (h : exec step s is = some t) (hQ : ∀ i ∈ is, Q i) (hs : P s) :
    is.countP p + μ t ≤ μ s := by
  induction is generalizing s with
  | nil =>
    cases h
    exact Nat.le_of_eq (Nat.zero_add _)
  | cons i is ih =>
    obtain ⟨s', hi, h⟩ := exec_cons_some.mp h
    obtain ⟨hs', hle⟩ := hstep s i s' (hQ i (List.mem_cons_self ..)) hi hs
    have hrest := ih h (fun j hj => hQ j (List.mem_cons_of_mem i hj)) hs'
    rw [List.countP_cons]
    cases hp : p i with
    | true =>
      rw [hp] at hle
      simp only [if_true, Bool.toNat_true] at hle ⊢
      omega
    | false =>
      rw [hp] at hle
      simp only [Bool.false_eq_true, if_false, Bool.toNat_false] at hle ⊢
      omega

/-- A measure that every step of some kind lowers, in states with an invariant, bounds the length of
a run of such steps. -/
theorem exec_length_of {μ : σ → Nat} {P : σ → Prop} {Q : ι → Prop}
    (hstep : ∀ s i s', Q i → step s i = some s' → P s → P s' ∧ μ s' < μ s) {s t : σ} {is : List ι}
    (h : exec step s is = some t) (hQ : ∀ i ∈ is, Q i) (hs : P s) : is.length + μ t ≤ μ s := by
  have hcount := exec_countP_of (p := fun _ => true) hstep h hQ hs
  rwa [List.countP_true] at hcount

/-- A run whose steps lower a measure is no longer than the measure. -/
theorem exec_length {μ : σ → Nat} {Q : ι → Prop}
    (hstep : ∀ s i s', Q i → step s i = some s' → μ s' < μ s) {s t : σ} {is : List ι}
    (h : exec step s is = some t) (hQ : ∀ i ∈ is, Q i) : is.length + μ t ≤ μ s :=
  exec_length_of (P := fun _ => True) (fun s i s' hi hs _ => ⟨trivial, hstep s i s' hi hs⟩) h hQ
    trivial

/-- Every step of the run relates its state, its action and the state after it. -/
def Each (step : σ → ι → Option σ) (R : σ → ι → σ → Prop) : σ → List ι → Prop
  | _, [] => True
  | s, i :: is => match step s i with
    | none => True
    | some s' => R s i s' ∧ Each step R s' is

/-- What each step satisfies, the last one does. -/
theorem Each.last {R : σ → ι → σ → Prop} {s t u : σ} {is : List ι} {i : ι}
    (hR : Each step R s (is ++ [i])) (h : exec step s is = some t) (hi : step t i = some u) :
    R t i u := by
  induction is generalizing s with
  | nil =>
    cases h
    rw [List.nil_append] at hR
    unfold Each at hR
    rw [hi] at hR
    exact hR.1
  | cons j is ih =>
    obtain ⟨s', hj, h⟩ := exec_cons_some.mp h
    rw [List.cons_append] at hR
    unfold Each at hR
    rw [hj] at hR
    exact ih hR.2 h

/-- Steps that meet the condition keep the invariant and are related: so it is throughout the
run. -/
theorem each_of_along {P : σ → ι → Prop} {I : σ → Prop} {R : σ → ι → σ → Prop}
    (hstep : ∀ s i s', P s i → step s i = some s' → I s → I s' ∧ R s i s') {s : σ} {is : List ι}
    (hP : Along step P s is) (hs : I s) : Each step R s is := by
  induction is generalizing s with
  | nil => trivial
  | cons i is ih =>
    obtain ⟨hp, hrest⟩ := hP
    unfold Each
    cases hi : step s i with
    | none => trivial
    | some s' =>
      rw [hi] at hrest
      obtain ⟨hs', hR⟩ := hstep s i s' hp hi hs
      exact ⟨hR, ih hrest hs'⟩

/-- The same with the converse, for runs whose steps all meet a further condition: where a step is
related only if it meets the first one, the two hold of the same runs. -/
theorem each_iff_along_of {K P : σ → ι → Prop} {I : σ → Prop} {R : σ → ι → σ → Prop}
    (hstep : ∀ s i s', K s i → P s i → step s i = some s' → I s → I s' ∧ R s i s')
    (hnot : ∀ s i s', K s i → ¬ P s i → step s i = some s' → I s → ¬ R s i s') {s t : σ}
    {is : List ι} (h : exec step s is = some t) (hK : Along step K s is) (hs : I s) :
    Each step R s is ↔ Along step P s is := by
  induction is generalizing s with
  | nil => exact Iff.rfl
  | cons i is ih =>
    obtain ⟨s', hi, h⟩ := exec_cons_some.mp h
    obtain ⟨hk, hK⟩ := hK
    rw [hi] at hK
    unfold Each Along
    rw [hi]
    constructor
    · rintro ⟨hr, hR⟩
      have hp : P s i := by
        by_contra hp
        exact hnot s i s' hk hp hi hs hr
      exact ⟨hp, (ih h hK (hstep s i s' hk hp hi hs).1).mp hR⟩
    · rintro ⟨hp, hP⟩
      obtain ⟨hs', hr⟩ := hstep s i s' hk hp hi hs
      exact ⟨hr, (ih h hK hs').mpr hP⟩

/-- Nothing is asked of the steps. -/
theorem along_true : ∀ (s : σ) (is : List ι), Along step (fun _ _ => True) s is
  | _, [] => trivial
  | s, i :: is => by
    refine ⟨trivial, ?_⟩
    cases step s i with
    | none => trivial
    | some s' => exact along_true s' is

/-- Without a further condition -/
theorem each_iff_along {P : σ → ι → Prop} {I : σ → Prop} {R : σ → ι → σ → Prop}
    (hstep : ∀ s i s', P s i → step s i = some s' → I s → I s' ∧ R s i s')
    (hnot : ∀ s i s', ¬ P s i → step s i = some s' → I s → ¬ R s i s') {s t : σ} {is : List ι}
    (h : exec step s is = some t) (hs : I s) : Each step R s is ↔ Along step P s is :=
  each_iff_along_of (fun s i s' _ => hstep s i s') (fun s i s' _ => hnot s i s') h
    (along_true s is) hs

end Exec

/-! ## Progress -/

section Progress

/-- A count that falls as long as a second one cannot fall reaches zero. -/
theorem exists_eq_zero {a b : Nat → Nat}
    (h : ∀ n, a n ≠ 0 → a (n + 1) < a n ∨ a (n + 1) ≤ a n ∧ b (n + 1) < b n) :
    ∃ n, a n = 0 := by
  have hreach : ∀ k m n, a n ≤ k → b n ≤ m → ∃ n, a n = 0 := by
    intro k
    induction k with
    | zero =>
      intro m n hk hm
      exact ⟨n, Nat.le_zero.mp hk⟩
    | succ k ihk =>
      intro m
      induction m with
      | zero =>
        intro n hk hm
        by_cases ha : a n = 0
        · exact ⟨n, ha⟩
        rcases h n ha with hlt | ⟨hle, hlt⟩
        · exact ihk (b (n + 1)) (n + 1) (by omega) (Nat.le_refl _)
        · omega
      | succ m ihm =>
        intro n hk hm
        by_cases ha : a n = 0
        · exact ⟨n, ha⟩
        rcases h n ha with hlt | ⟨hle, hlt⟩
        · exact ihk (b (n + 1)) (n + 1) (by omega) (Nat.le_refl _)
        · exact ihm (n + 1) (by omega) (by omega)
  exact hreach (a 0) (b 0) 0 (Nat.le_refl _) (Nat.le_refl _)

variable {α : Type u} {p q : α → Prop} [DecidablePred p] [DecidablePred q] {l : List α}

/-- Fewer elements satisfy a stronger condition. -/
theorem countP_le_countP (h : ∀ x ∈ l, q x → p x) :
    l.countP (fun x => decide (q x)) ≤ l.countP (fun x => decide (p x)) :=
  List.countP_mono_left fun x hx hq => decide_eq_true (h x hx (of_decide_eq_true hq))

/-- Fewer still, if one satisfies only the weaker one. -/
theorem countP_lt_countP (h : ∀ x ∈ l, q x → p x) {x : α} (hx : x ∈ l) (hp : p x)
    (hq : ¬ q x) : l.countP (fun x => decide (q x)) < l.countP (fun x => decide (p x)) := by
  induction l with
  | nil => cases hx
  | cons y l ih =>
    have hrest : ∀ x ∈ l, q x → p x := fun x hx => h x (List.mem_cons_of_mem y hx)
    rw [List.countP_cons, List.countP_cons]
    rcases List.mem_cons.mp hx with rfl | hx
    · have hle := countP_le_countP hrest
      simp only [hp, hq, decide_true, decide_false, if_true]
      exact Nat.lt_succ_of_le hle
    · have hlt := ih hrest hx
      have hy := h y (List.mem_cons_self ..)
      by_cases hqy : q y
      · simp only [hqy, hy hqy, decide_true, if_true]
        omega
      · simp only [hqy, decide_false, Bool.false_eq_true, if_false]
        omega

end Progress

end PicoHost.Machine
