import Mathlib.Data.List.Basic

/- Rows in groups. Some of a group's rows are live, and as long as there is a live one,
   exactly one row of the group is chosen, among the live ones. -/
namespace ChosenRows

variable {ρ γ : Type}

structure Chosen (group : ρ → γ) (live chosen : ρ → Prop) (rows : List ρ) : Prop where
  alive : ∀ a ∈ rows, chosen a → live a
  single : ∀ a ∈ rows, ∀ b ∈ rows, group a = group b → chosen a → chosen b → a = b
  led : ∀ a ∈ rows, live a → ∃ b ∈ rows, group b = group a ∧ chosen b

variable {group : ρ → γ} {live chosen : ρ → Prop} {rows : List ρ} {r : ρ}

theorem chosen_nil : Chosen group live chosen [] := by
  constructor <;> simp

theorem chosen_unique (h : Chosen group live chosen rows) {g : γ}
    (some : ∃ a ∈ rows, group a = g ∧ live a) :
    ∃! a, (a ∈ rows ∧ group a = g ∧ live a) ∧ chosen a := by
  obtain ⟨a, mem, rfl, lives⟩ := some
  obtain ⟨b, among, same, leads⟩ := h.led a mem lives
  refine ⟨b, ⟨⟨among, same, h.alive b among leads⟩, leads⟩, ?_⟩
  rintro c ⟨⟨there, mine, _⟩, also⟩
  exact h.single c there b among (mine.trans same.symm) also leads

theorem chosen_append (h : Chosen group live chosen rows) (lives : live r)
    (first : chosen r ↔ ∀ a ∈ rows, group a = group r → ¬ live a) :
    Chosen group live chosen (rows ++ [r]) := by
  have new : ∀ a ∈ rows ++ [r], a ∈ rows ∨ a = r := by simp
  have alone : ∀ a ∈ rows, group a = group r → chosen a → ¬ chosen r := by
    intro a mem same leads newcomer
    exact first.mp newcomer a mem same (h.alive a mem leads)
  constructor
  · intro a mem leads
    rcases new a mem with old | rfl
    · exact h.alive a old leads
    · exact lives
  · intro a memA b memB same leadsA leadsB
    rcases new a memA with oldA | rfl <;> rcases new b memB with oldB | rfl
    · exact h.single a oldA b oldB same leadsA leadsB
    · exact absurd leadsB (alone a oldA same leadsA)
    · exact absurd leadsA (alone b oldB same.symm leadsB)
    · rfl
  · intro a mem alive
    rcases new a mem with old | rfl
    · obtain ⟨b, among, same, leads⟩ := h.led a old alive
      exact ⟨b, List.mem_append_left _ among, same, leads⟩
    · by_cases empty : ∃ b ∈ rows, group b = group a ∧ live b
      · obtain ⟨b, among, same, livesB⟩ := empty
        obtain ⟨c, there, mine, leads⟩ := h.led b among livesB
        exact ⟨c, List.mem_append_left _ there, mine.trans same, leads⟩
      · have leads := first.mpr (fun b among same livesB => empty ⟨b, among, same, livesB⟩)
        exact ⟨a, by simp, rfl, leads⟩

/-- A change within one group has to be looked at in that group only. -/
theorem chosen_regroup {f : ρ → ρ} {g : γ} (h : Chosen group live chosen rows)
    (keeps : ∀ a ∈ rows, group (f a) = group a) (others : ∀ a ∈ rows, group a ≠ g → f a = a)
    (alive : ∀ a ∈ rows, group a = g → chosen (f a) → live (f a))
    (single : ∀ a ∈ rows, ∀ b ∈ rows, group a = g → group b = g → chosen (f a) →
      chosen (f b) → a = b)
    (led : ∀ a ∈ rows, group a = g → live (f a) → ∃ b ∈ rows, group b = g ∧ chosen (f b)) :
    Chosen group live chosen (rows.map f) := by
  have back : ∀ a ∈ rows.map f, ∃ b ∈ rows, f b = a := fun a mem => List.mem_map.mp mem
  constructor
  · intro a mem leads
    obtain ⟨b, old, rfl⟩ := back a mem
    by_cases within : group b = g
    · exact alive b old within leads
    · rw [others b old within] at leads ⊢
      exact h.alive b old leads
  · intro a memA b memB same leadsA leadsB
    obtain ⟨c, oldC, rfl⟩ := back a memA
    obtain ⟨d, oldD, rfl⟩ := back b memB
    rw [keeps c oldC, keeps d oldD] at same
    by_cases within : group c = g
    · rw [single c oldC d oldD within (same.symm.trans within) leadsA leadsB]
    · have outside : group d ≠ g := fun inside => within (same.trans inside)
      rw [others c oldC within] at leadsA ⊢
      rw [others d oldD outside] at leadsB ⊢
      exact h.single c oldC d oldD same leadsA leadsB
  · intro a mem lives
    obtain ⟨b, old, rfl⟩ := back a mem
    by_cases within : group b = g
    · obtain ⟨c, among, same, leads⟩ := led b old within lives
      refine ⟨f c, List.mem_map.mpr ⟨c, among, rfl⟩, ?_, leads⟩
      rw [keeps c among, keeps b old, same, within]
    · have stays := others b old within
      rw [stays] at lives
      obtain ⟨c, among, same, leads⟩ := h.led b old lives
      have outside : group c ≠ g := fun inside => within (same.symm.trans inside)
      refine ⟨c, List.mem_map.mpr ⟨c, among, others c among outside⟩, ?_, leads⟩
      rw [stays, same]

end ChosenRows
