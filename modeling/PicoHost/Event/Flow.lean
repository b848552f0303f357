import PicoHost.Event.Loop
import Mathlib.Data.List.Forall2

/-!
# The way of the posts

What the loop is for, without mutex and tasks: posts go from the callers to the queue and
from there, one at a time, to the handlers. `Flow` is the invariant of this way: which post
owns which copy, what the handlers will read in it, and what has become of the copies that
are freed. Each lemma is one step of the way.
-/

namespace PicoHost.Event

/-! ## The invariant -/

/-- Posts that are built but not yet accepted, the post whose handlers run, with what they
were given, and the posts that wait for their dispatch. -/
structure Way where
  pending : List (Post × Posted)
  flight : List (Post × Delivery)
  waiting : List Post

/-- All posts on the way. -/
def Way.posts (way : Way) : List Post :=
  way.pending.map Prod.fst ++ way.flight.map Prod.fst ++ way.waiting

/-- The copies that the posts own. -/
def Way.copies (way : Way) : List Block := way.posts.flatMap Post.copies

/-- What holds of the posts on the way, the memory and the log. -/
structure Flow (way : Way) (memory : Memory) (log : Log) : Prop where
  ok : ∀ post ∈ way.posts, post.Ok
  owns : memory.heap.Owns way.copies
  words : memory.words = []
  pending : ∀ x ∈ way.pending, x.2.DeliveredBy (memory.delivery x.1)
  flight : ∀ x ∈ way.flight, x.2.copies = x.1.copies
  /-- The accepted events are those that were dispatched or will be, in this order. -/
  order : List.Forall₂ Posted.DeliveredBy log.accepted
    (log.dispatched ++ way.flight.map Prod.snd ++ way.waiting.map memory.delivery)
  freed : memory.heap.freed.Perm (log.rejected ++ log.dispatched.flatMap Delivery.copies)
  copied : log.copied.Perm (memory.heap.live ++ memory.heap.freed)

theorem flow_init : Flow ⟨[], [], []⟩ Memory.empty ⟨[], [], [], []⟩ where
  ok := nofun
  owns := Heap.owns_empty
  words := rfl
  pending := nofun
  flight := nofun
  order := .nil
  freed := .refl _
  copied := .refl _

/-! ## The log -/

section Log

variable (log : Log) {log' : Log} {posted : Posted}

theorem Log.accepted_ok (h : log'.posted = log.posted ++ [(posted, .ok)]) :
    log'.accepted = log.accepted ++ [posted] := by
  unfold Log.accepted
  rw [h, List.filterMap_append]
  rfl

theorem Log.accepted_err {err : EspErr} (herr : err ≠ .ok)
    (h : log'.posted = log.posted ++ [(posted, err)]) : log'.accepted = log.accepted := by
  unfold Log.accepted
  rw [h, List.filterMap_append]
  simp [herr]

end Log

/-! ## Steps -/

section Steps

variable {way : Way} {pending : List (Post × Posted)} {flight : List (Post × Delivery)}
  {waiting : List Post} {memory : Memory} {log : Log}

/-- A call that changes nothing returns an error. -/
theorem Flow.refuse (f : Flow way memory log) (posted : Posted) {err : EspErr} (h : err ≠ .ok) :
    Flow way memory { log with posted := log.posted ++ [(posted, err)] } := by
  refine ⟨f.ok, f.owns, f.words, f.pending, f.flight, ?_, f.freed, f.copied⟩
  rw [log.accepted_err h rfl]
  exact f.order

/-- The order of the calls that are going on does not matter. -/
theorem Flow.reorder (f : Flow way memory log)
    (h : way.pending.Perm pending) : Flow { way with pending } memory log := by
  have hposts : way.posts.Perm (Way.posts { way with pending }) :=
    ((h.map Prod.fst).append_right _).append_right _
  refine ⟨fun post hpost => f.ok post (hposts.mem_iff.mpr hpost),
    f.owns.perm (hposts.flatMap_right _), f.words, fun x hx => f.pending x (h.mem_iff.mpr hx),
    f.flight, f.order, f.freed, f.copied⟩

/-- A request for memory that fails. -/
theorem Flow.noMem (f : Flow way memory log) {A : Allocator} {heap : Heap}
    (h : A.calloc memory.heap = (none, heap)) : Flow way { memory with heap } log := by
  rcases A.calloc_cases memory.heap with hc | ⟨a, hc, -⟩
  · rw [hc] at h
    cases h
    have hlive : ∀ b ∈ memory.heap.live ++ memory.heap.freed, b.serial < memory.heap.serial + 1 :=
      fun b hb => Nat.lt_succ_of_lt (f.owns.ok.lt b hb)
    exact ⟨f.ok, ⟨⟨f.owns.ok.nodup, hlive⟩, f.owns.live, f.owns.apart⟩, f.words, f.pending,
      f.flight, f.order, f.freed, f.copied⟩
  · rw [hc] at h
    cases h

/-- A new post without a copy. -/
theorem Flow.begin (f : Flow way memory log) {post : Post} {posted : Posted} (hok : post.Ok)
    (hcopies : post.copies = []) (hd : posted.DeliveredBy (memory.delivery post)) :
    Flow { way with pending := (post, posted) :: way.pending } memory log := by
  refine ⟨?_, ?_, f.words, ?_, f.flight, f.order, f.freed, f.copied⟩
  · intro x hx
    rcases List.mem_cons.mp hx with rfl | hx
    · exact hok
    · exact f.ok x hx
  · show memory.heap.Owns (post.copies ++ way.copies)
    rw [hcopies]
    exact f.owns
  · intro x hx
    rcases List.mem_cons.mp hx with rfl | hx
    · exact hd
    · exact f.pending x hx

/-- Bytes that belong to no post that has still to be dispatched. -/
theorem Flow.setBytes (f : Flow way memory log) {p : Block} (bytes : List UInt8)
    (hpending : ∀ x ∈ way.pending, p ∉ x.1.copies) (hwaiting : ∀ post ∈ way.waiting, p ∉ post.copies) :
    Flow way { memory with bytes := Function.update memory.bytes p bytes } log := by
  have hdelivery : ∀ post : Post, p ∉ post.copies →
      Memory.delivery { memory with bytes := Function.update memory.bytes p bytes } post =
        memory.delivery post := fun post hp =>
    delivery_congr fun q hq => Function.update_of_ne (ne_of_mem_of_not_mem hq hp) ..
  refine ⟨f.ok, f.owns, f.words, fun x hx => ?_, f.flight, ?_, f.freed, f.copied⟩
  · rw [hdelivery x.1 (hpending x hx)]
    exact f.pending x hx
  · rw [List.map_congr_left fun post hpost => hdelivery post (hwaiting post hpost)]
    exact f.order

/-- A new post with a copy. -/
theorem Flow.copy (f : Flow way memory log) {A : Allocator} {heap : Heap} {p : Block}
    {post : Post} {posted : Posted} {bytes : List UInt8}
    (hcalloc : A.calloc memory.heap = (some p, heap)) (hok : post.Ok) (hcopies : post.copies = [p])
    (hd : ∀ memory' : Memory, memory'.bytes p = bytes → posted.DeliveredBy (memory'.delivery post)) :
    Flow { way with pending := (post, posted) :: way.pending }
      { memory with heap, bytes := Function.update memory.bytes p bytes }
      { log with copied := post.copies ++ log.copied } := by
  rcases A.calloc_cases memory.heap with hc | ⟨a, hc, ha⟩
  · rw [hc] at hcalloc
    cases hcalloc
  rw [hc] at hcalloc
  cases hcalloc
  have hfresh : ∀ x ∈ way.posts, (memory.heap.malloc a).1 ∉ x.copies := fun x hx hp =>
    f.owns.ok.malloc_notMem a (f.owns.mem_iff.mpr (List.mem_flatMap.mpr ⟨x, hx, hp⟩))
  have g := f.setBytes (p := (memory.heap.malloc a).1) bytes
    (fun x hx => hfresh x.1 (List.mem_append_left _ (List.mem_append_left _ (List.mem_map_of_mem hx))))
    (fun x hx => hfresh x (List.mem_append_right _ hx))
  refine ⟨?_, ?_, f.words, ?_, f.flight, g.order, f.freed, ?_⟩
  · intro x hx
    rcases List.mem_cons.mp hx with rfl | hx
    · exact hok
    · exact f.ok x hx
  · show (memory.heap.malloc a).2.Owns (post.copies ++ way.copies)
    rw [hcopies]
    exact f.owns.malloc ha
  · intro x hx
    rcases List.mem_cons.mp hx with rfl | hx
    · exact hd _ (Function.update_self ..)
    · exact g.pending x hx
  · rw [hcopies]
    exact f.copied.cons _

/-- A post that is deleted: what it owns is freed, and nothing else. -/
theorem Flow.delete (f : Flow way memory log) {way' : Way} {post : Post}
    (h : way.posts.Perm (post :: way'.posts)) :
    postInstanceDelete memory post =
        { memory with heap := memory.heap.freeAll post.copies } ∧
      (memory.heap.freeAll post.copies).Owns way'.copies ∧
      (memory.heap.freeAll post.copies).freed.Perm (post.copies ++ memory.heap.freed) ∧
      log.copied.Perm ((memory.heap.freeAll post.copies).live ++
        (memory.heap.freeAll post.copies).freed) := by
  have howns : memory.heap.Owns (post.copies ++ way'.copies) :=
    f.owns.perm (h.flatMap_right Post.copies)
  refine ⟨postInstanceDelete_eq (f.ok post (h.mem_iff.mpr (List.mem_cons_self ..))) memory,
    howns.freeAll, ?_, f.copied.trans howns.freeAll_perm.symm⟩
  rw [Heap.freeAll_freed]
  exact (List.reverse_perm post.copies).append_right _

/-- A post that is not accepted. -/
theorem Flow.reject {post : Post} {posted : Posted}
    (f : Flow ⟨(post, posted) :: pending, flight, waiting⟩ memory log) :
    Flow ⟨pending, flight, waiting⟩ (postInstanceDelete memory post)
      { log with
        rejected := post.copies ++ log.rejected
        posted := log.posted ++ [(posted, .timeout)] } := by
  have hposts : (Way.posts ⟨(post, posted) :: pending, flight, waiting⟩).Perm
      (post :: Way.posts ⟨pending, flight, waiting⟩) := .refl _
  obtain ⟨hdelete, howns, hfreed, hcopied⟩ := f.delete hposts
  rw [hdelete]
  refine ⟨fun x hx => f.ok x (List.mem_cons_of_mem _ hx), howns, f.words,
    fun x hx => f.pending x (List.mem_cons_of_mem _ hx), f.flight, ?_, ?_, hcopied⟩
  · have herr : EspErr.timeout ≠ .ok := nofun
    rw [log.accepted_err herr rfl]
    exact f.order
  · refine hfreed.trans ?_
    rw [List.append_assoc]
    exact f.freed.append_left _

/-- A post that is accepted. -/
theorem Flow.accept {post : Post} {posted : Posted}
    (f : Flow ⟨(post, posted) :: pending, flight, waiting⟩ memory log) :
    Flow ⟨pending, flight, waiting ++ [post]⟩ memory
      { log with posted := log.posted ++ [(posted, .ok)] } := by
  have hposts : (Way.posts ⟨(post, posted) :: pending, flight, waiting⟩).Perm
      (Way.posts ⟨pending, flight, waiting ++ [post]⟩) := by
    unfold Way.posts
    dsimp only
    rw [← List.append_assoc]
    exact List.perm_append_singleton post _ |>.symm
  refine ⟨fun x hx => f.ok x (hposts.mem_iff.mpr hx), f.owns.perm (hposts.flatMap_right _),
    f.words, fun x hx => f.pending x (List.mem_cons_of_mem _ hx), f.flight, ?_, f.freed, f.copied⟩
  rw [log.accepted_ok rfl, List.map_append, ← List.append_assoc]
  exact List.rel_append f.order (.cons (f.pending _ (List.mem_cons_self ..)) .nil)

/-- A post that gets its turn. -/
theorem Flow.dispatch {post : Post} (f : Flow ⟨pending, [], post :: waiting⟩ memory log) :
    Flow ⟨pending, [(post, memory.delivery post)], waiting⟩ memory log := by
  have hposts : Way.posts ⟨pending, [(post, memory.delivery post)], waiting⟩ =
      Way.posts ⟨pending, [], post :: waiting⟩ := by
    unfold Way.posts
    simp
  refine ⟨?_, ?_, f.words, f.pending, ?_, ?_, f.freed, f.copied⟩
  · rw [hposts]
    exact f.ok
  · unfold Way.copies
    rw [hposts]
    exact f.owns
  · intro x hx
    rw [List.mem_singleton.mp hx]
    rfl
  · have h := f.order
    simp only [List.map_nil, List.append_nil, List.map_cons, List.map_nil] at h ⊢
    rwa [List.append_assoc, List.singleton_append]

/-- A post whose handlers have returned. -/
theorem Flow.finish {post : Post} {delivery : Delivery}
    (f : Flow ⟨pending, [(post, delivery)], waiting⟩ memory log) :
    Flow ⟨pending, [], waiting⟩ (postInstanceDelete memory post)
      { log with dispatched := log.dispatched ++ [delivery] } := by
  have hposts : (Way.posts ⟨pending, [(post, delivery)], waiting⟩).Perm
      (post :: Way.posts ⟨pending, [], waiting⟩) := by
    unfold Way.posts
    dsimp only
    rw [List.map_singleton, List.map_nil, List.append_nil, List.append_assoc]
    exact List.perm_middle
  obtain ⟨hdelete, howns, hfreed, hcopied⟩ := f.delete hposts
  have hcopies : delivery.copies = post.copies := f.flight _ (List.mem_singleton_self _)
  rw [hdelete]
  refine ⟨fun x hx => f.ok x (hposts.mem_iff.mpr (List.mem_cons_of_mem _ hx)), howns, f.words,
    f.pending, nofun, ?_, ?_, hcopied⟩
  · have h := f.order
    simp only [List.map_nil, List.append_nil, List.map_cons] at h ⊢
    exact h
  · rw [List.flatMap_append, List.flatMap_singleton, hcopies, ← List.append_assoc]
    refine hfreed.trans (List.perm_append_comm.trans ?_)
    exact f.freed.append_right _

/-- A handler writes to the data of its event. -/
theorem Flow.write {post : Post} {delivery : Delivery}
    (f : Flow ⟨pending, [(post, delivery)], waiting⟩ memory log) {p : Block}
    (hp : p ∈ post.copies) (bytes : List UInt8) :
    Flow ⟨pending, [(post, delivery)], waiting⟩
      { memory with bytes := Function.update memory.bytes p bytes } log := by
  have hnd := f.owns.nodup
  unfold Way.copies Way.posts at hnd
  simp only [List.map_singleton, List.flatMap_append, List.flatMap_singleton] at hnd
  obtain ⟨hleft, -, hdisj⟩ := List.nodup_append.mp hnd
  obtain ⟨-, -, hdisj'⟩ := List.nodup_append.mp hleft
  refine f.setBytes bytes (fun x hx hpx => ?_) fun x hx hpx => ?_
  · exact hdisj' p (List.mem_flatMap.mpr ⟨x.1, List.mem_map_of_mem hx, hpx⟩) p hp rfl
  · exact hdisj p (List.mem_append_right _ hp) p (List.mem_flatMap.mpr ⟨x, hx, hpx⟩) rfl

end Steps

end PicoHost.Event
