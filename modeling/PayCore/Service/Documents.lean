import PayCore.Library.HexText
import PayCore.Library.Replacing
import PayCore.Service.Kyc

/- The object keys of app/services/kyc.py: where `submit_kyc` stores an identity document. -/
namespace PayCoreDocuments
open HexText Replacing PayCoreTables PayCoreSessions PayCoreKyc

def hex (id : Uuid) : List Char := hexText 32 id

/-- `str(uuid)`: the digits in groups of eight, four, four, four and twelve. -/
def str (id : Uuid) : List Char :=
  (hex id).take 8 ++ '-' :: ((hex id).take 12).drop 8 ++ '-' :: ((hex id).take 16).drop 12 ++
    '-' :: ((hex id).take 20).drop 16 ++ '-' :: (hex id).drop 20

def safeName (filename : List Char) : List Char :=
  replace ['.', '.'] ['_'] (replace ['/'] ['_'] filename)

def objectKey (userId submissionId : Uuid) (filename : String) : String :=
  String.ofList ("kyc".toList ++ '/' :: str userId ++ '/' :: str submissionId ++
    '/' :: safeName filename.toList)

/-- `submit_kyc` with the name the client gave the document (the router sends "document" for none). -/
def submitDocument (user : User) (targetTier : Nat) (fileBytes : List UInt8) (filename : String)
    (submissionId : Uuid) : Tx KYCSubmission :=
  submitKyc user targetTier fileBytes submissionId (objectKey user.id submissionId filename)

theorem digits_grouped (digits : List Char) (dashless : '-' ∉ digits) :
    (digits.take 8 ++ '-' :: (digits.take 12).drop 8 ++ '-' :: (digits.take 16).drop 12 ++
      '-' :: (digits.take 20).drop 16 ++ '-' :: digits.drop 20).filter (· != '-') = digits := by
  have group : ∀ piece : List Char, (∀ c ∈ piece, c ∈ digits) → piece.filter (· != '-') = piece := by
    intro piece within
    apply List.filter_eq_self.mpr
    intro c mem
    have other : c ≠ '-' := fun dash => dashless (dash ▸ within c mem)
    simpa using other
  have cut : ∀ n m, n ≤ m → digits.take n ++ (digits.take m).drop n = digits.take m := by
    intro n m le
    have first : (digits.take m).take n = digits.take n := by
      rw [List.take_take, Nat.min_eq_left le]
    rw [← first, List.take_append_drop]
  simp only [List.filter_append, List.filter_cons, bne_self_eq_false, Bool.false_eq_true, if_false]
  rw [group _ (fun c mem => List.mem_of_mem_take mem),
    group _ (fun c mem => List.mem_of_mem_take (List.mem_of_mem_drop mem)),
    group _ (fun c mem => List.mem_of_mem_take (List.mem_of_mem_drop mem)),
    group _ (fun c mem => List.mem_of_mem_take (List.mem_of_mem_drop mem)),
    group _ (fun c mem => List.mem_of_mem_drop mem),
    cut 8 12 (by decide), cut 12 16 (by decide), cut 16 20 (by decide), List.take_append_drop]

theorem str_injective {id other : Uuid} (same : str id = str other) : id % 2 ^ 128 = other % 2 ^ 128 := by
  have dashless : ∀ n, '-' ∉ hex n := foreign_character (by decide) 32
  have digits : hex id = hex other := by
    rw [← digits_grouped (hex id) (dashless id),
      ← digits_grouped (hex other) (dashless other)]
    exact congrArg (List.filter (· != '-')) same
  exact hexText_injective digits

theorem str_alphabet {id : Uuid} {c : Char} (mem : c ∈ str id) : c = '-' ∨ c ∈ alphabet := by
  simp only [str, List.append_assoc, List.cons_append, List.mem_append, List.mem_cons] at mem
  have digit : ∀ {c : Char}, c ∈ hex id → c ∈ alphabet := mem_hexText
  rcases mem with a | rfl | b | rfl | c | rfl | d | rfl | e
  · exact Or.inr (digit (List.mem_of_mem_take a))
  · exact Or.inl rfl
  · exact Or.inr (digit (List.mem_of_mem_take (List.mem_of_mem_drop b)))
  · exact Or.inl rfl
  · exact Or.inr (digit (List.mem_of_mem_take (List.mem_of_mem_drop c)))
  · exact Or.inl rfl
  · exact Or.inr (digit (List.mem_of_mem_take (List.mem_of_mem_drop d)))
  · exact Or.inl rfl
  · exact Or.inr (digit (List.mem_of_mem_drop e))

theorem slash_not_in_str (id : Uuid) : '/' ∉ str id := by
  intro mem
  rcases str_alphabet mem with dash | digit
  · exact absurd dash (by decide)
  · exact absurd digit (by decide)

end PayCoreDocuments
