import Mathlib.Data.List.Basic
import Mathlib.Data.List.Nodup

/- Passes over a backlog that take a limited number of items each, in an order that nothing fixes. -/
namespace BatchedPasses
variable {α κ : Type} {l order : List α} {k : Nat} {p : α → Bool}

theorem batch_length (perm : order.Perm l) : (order.take k).length = min k l.length := by
  rw [List.length_take, perm.length_eq]

theorem batch_share (perm : order.Perm l) :
    min (l.countP p) (k - l.countP (fun a => !p a)) ≤ (order.take k).countP p := by
  have taken := batch_length (k := k) perm
  have share : (order.take k).length = (order.take k).countP p + (order.take k).countP (fun a => !p a) := by
    simpa using List.length_eq_countP_add_countP p (l := order.take k)
  have whole : l.length = l.countP p + l.countP (fun a => !p a) := by
    simpa using List.length_eq_countP_add_countP p (l := l)
  have fewer : (order.take k).countP (fun a => !p a) ≤ l.countP (fun a => !p a) := by
    rw [← perm.countP_eq]
    exact (List.take_sublist k order).countP_le
  omega

theorem remaining_length [DecidableEq κ] {f : α → κ} (own : (l.map f).Nodup) {keys : List κ}
    (nodup : keys.Nodup) (among : ∀ x ∈ keys, x ∈ l.map f) :
    (l.filter (fun a => decide (f a ∉ keys))).length + keys.length = l.length := by
  have gone : ((l.filter (fun a => decide (f a ∈ keys))).map f).Perm keys := by
    apply (List.perm_ext_iff_of_nodup (own.sublist (List.filter_sublist.map f)) nodup).mpr
    intro x
    simp only [List.mem_map, List.mem_filter, decide_eq_true_eq]
    constructor
    · rintro ⟨a, ⟨_, taken⟩, rfl⟩
      exact taken
    · intro mem
      obtain ⟨a, there, rfl⟩ := List.mem_map.mp (among x mem)
      exact ⟨a, ⟨there, mem⟩, rfl⟩
  have count : (l.filter (fun a => decide (f a ∈ keys))).length = keys.length := by
    rw [← gone.length_eq, List.length_map]
  have parts := List.length_eq_length_filter_add (l := l) (fun a => decide (f a ∉ keys))
  simp only [decide_not, Bool.not_not] at parts ⊢
  omega

/-- What each pass makes smaller by `c` has shrunk by as much as there were passes, while the
invariant holds. -/
theorem passes_shrink {S P : Type} {pass : S → P → S} {size : S → Nat} {I : S → Prop} {c : Nat}
    {passes : List P}
    (shrinks : ∀ x ∈ passes, ∀ s, I s → I (pass s x) ∧ size (pass s x) ≤ size s - c) {s : S}
    (initially : I s) :
    I (passes.foldl pass s) ∧ size (passes.foldl pass s) ≤ size s - c * passes.length := by
  induction passes generalizing s with
  | nil => exact ⟨initially, Nat.le_refl _⟩
  | cons x rest ih =>
    obtain ⟨holds, first⟩ := shrinks x List.mem_cons_self s initially
    obtain ⟨last, onward⟩ := ih (fun y mem => shrinks y (List.mem_cons_of_mem x mem)) holds
    have more : c * (x :: rest).length = c * rest.length + c := Nat.mul_succ c rest.length
    rw [List.foldl_cons, more]
    constructor
    · exact last
    · omega

end BatchedPasses
