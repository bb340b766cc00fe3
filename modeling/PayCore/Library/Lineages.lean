import Mathlib.Data.List.Nodup
import Mathlib.Logic.Relation

/- Keys that are exchanged for new keys. Where each key is exchanged once at most, and is dead
   from then on, the keys that come from one root form a line with one living end at most. -/
namespace Lineages

variable {κ : Type} {log : List (κ × κ)} {a b root : κ}

def Kin (log : List (κ × κ)) (a b : κ) : Prop := (a, b) ∈ log

def Descends (log : List (κ × κ)) : κ → κ → Prop := Relation.ReflTransGen (Kin log)

/-- `known` are the keys ever issued, `live` those that may still be exchanged. -/
structure Lineage (log : List (κ × κ)) (known live : κ → Prop) : Prop where
  once : (log.map Prod.fst).Nodup
  spent : ∀ e ∈ log, ¬ live e.1
  parents : ∀ e ∈ log, known e.1
  children : ∀ e ∈ log, known e.2

theorem lineage_start {known live : κ → Prop} : Lineage [] known live where
  once := List.nodup_nil
  spent := by simp
  parents := by simp
  children := by simp

section
variable {known live known' live' : κ → Prop}

theorem lineage_keeps (h : Lineage log known live) (grows : ∀ x, known x → known' x)
    (dies : ∀ x, known x → live' x → live x) : Lineage log known' live' where
  once := h.once
  spent e mem lives := h.spent e mem (dies _ (h.parents e mem) lives)
  parents e mem := grows _ (h.parents e mem)
  children e mem := grows _ (h.children e mem)

theorem lineage_exchange (h : Lineage log known live) (old : known a) (alive : live a) (dead : ¬ live' a)
    (issued : known' b) (grows : ∀ x, known x → known' x) (dies : ∀ x, known x → live' x → live x) :
    Lineage (log ++ [(a, b)]) known' live' := by
  have kept := lineage_keeps h grows dies
  have unspent : a ∉ log.map Prod.fst := by
    intro mem
    obtain ⟨e, among, same⟩ := List.mem_map.mp mem
    rw [← same] at alive
    exact h.spent e among alive
  constructor
  · rw [List.map_append, List.nodup_append']
    refine ⟨h.once, List.nodup_singleton a, ?_⟩
    simpa using unspent
  · intro e mem
    rcases List.mem_append.mp mem with before | new
    · exact kept.spent e before
    · rw [List.mem_singleton.mp new]
      exact dead
  · intro e mem
    rcases List.mem_append.mp mem with before | new
    · exact kept.parents e before
    · rw [List.mem_singleton.mp new]
      exact grows a old
  · intro e mem
    rcases List.mem_append.mp mem with before | new
    · exact kept.children e before
    · rw [List.mem_singleton.mp new]
      exact issued

theorem kin_unique (once : (log.map Prod.fst).Nodup) : Relator.RightUnique (Kin log) := by
  intro a b c left right
  have same := List.inj_on_of_nodup_map once left right rfl
  exact congrArg Prod.snd same

theorem living_end (h : Lineage log known live) (alive : live a) (below : Descends log a b) : a = b := by
  rcases Relation.ReflTransGen.cases_head below with same | ⟨c, exchanged, _⟩
  · exact same
  · exact absurd alive (h.spent (a, c) exchanged)

theorem one_living_end (h : Lineage log known live) (aliveA : live a) (aliveB : live b)
    (fromA : Descends log root a) (fromB : Descends log root b) : a = b := by
  rcases Relation.ReflTransGen.total_of_right_unique (kin_unique h.once) fromA fromB with below | above
  · exact living_end h aliveA below
  · exact (living_end h aliveB above).symm

end

end Lineages
