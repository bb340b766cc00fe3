import Mathlib.Data.List.Induction

/- A list of entries under keys, oldest first: which value was entered last under a key. -/
namespace LatestEntries

variable {α κ : Type} [DecidableEq κ]

def latest (l : List (α × κ)) (k : κ) : Option α :=
  l.foldl (fun held e => if e.2 = k then some e.1 else held) none

@[simp] theorem latest_nil (k : κ) : latest ([] : List (α × κ)) k = none := rfl

theorem latest_snoc (l : List (α × κ)) (e : α × κ) (k : κ) :
    latest (l ++ [e]) k = if e.2 = k then some e.1 else latest l k := by
  simp [latest, List.foldl_append]

theorem latest_mem {l : List (α × κ)} {k : κ} {a : α} (last : latest l k = some a) : (a, k) ∈ l := by
  induction l using List.reverseRecOn with
  | nil => cases last
  | append_singleton l e ih =>
    rw [latest_snoc] at last
    split at last
    · rename_i own
      cases last
      exact List.mem_append_right _ (by simp [← own])
    · exact List.mem_append_left _ (ih last)

end LatestEntries
