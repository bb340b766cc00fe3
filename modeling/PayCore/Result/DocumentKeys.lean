import PayCore.Service.Documents
import PayCore.Proof.AskRules
import PayCore.Proof.RoleRules

/- The object keys of identity documents: whatever name a client gives a document, it is stored
   and recorded under the prefix of the user who submits it. -/
namespace PayCoreDocumentKeys
open HexText Replacing SessionProgram LoneSessions PayCoreTables PayCoreWrites PayCoreSessions
open PayCoreKyc PayCoreDocuments PayCoreAskRules PayCoreRoleRules

theorem slash_replaced (filename : List Char) : '/' ∉ replace ['/'] ['_'] filename := by
  intro mem
  have occurs : ['/'] <:+: replace ['/'] ['_'] filename := by
    obtain ⟨before, after, split⟩ := List.append_of_mem mem
    exact ⟨before, after, by rw [split]; simp⟩
  exact replace_leaves_none (by simp) (by simp) (by simp) filename occurs

theorem safeName_slashless (filename : List Char) : '/' ∉ safeName filename := by
  intro mem
  rcases mem_replaceFrom mem with brought | kept
  · exact absurd brought (by decide)
  · exact slash_replaced filename kept

theorem safeName_dotless (filename : List Char) : ¬ ['.', '.'] <:+: safeName filename :=
  replace_leaves_none (by simp) (by simp) (by simp) _

theorem key_segments (userId submissionId : Uuid) (filename : String) :
    (objectKey userId submissionId filename).toList.splitOn '/' =
      ["kyc".toList, str userId, str submissionId, safeName filename.toList] := by
  have parts : (objectKey userId submissionId filename).toList =
      "kyc".toList ++ '/' ::
      (str userId ++ '/' :: (str submissionId ++ '/' :: safeName filename.toList)) := by
    unfold objectKey
    rw [String.toList_ofList]
    simp only [List.append_assoc, List.cons_append]
  rw [parts, List.splitOn_append_cons_self_of_not_mem (by decide),
    List.splitOn_append_cons_self_of_not_mem (slash_not_in_str userId),
    List.splitOn_append_cons_self_of_not_mem (slash_not_in_str submissionId),
    List.splitOn_eq_singleton (safeName_slashless filename.toList)]

/-- A key under the prefix of a user has that user's id in its second segment. -/
theorem prefix_segment {key : List Char} {other : Uuid}
    (under : ("kyc".toList ++ '/' :: str other ++ ['/']) <+: key) :
    (key.splitOn '/').take 2 = ["kyc".toList, str other] := by
  obtain ⟨rest, rfl⟩ := under
  have parts : "kyc".toList ++ '/' :: str other ++ ['/'] ++ rest =
      "kyc".toList ++ '/' :: (str other ++ '/' :: rest) := by
    simp only [List.append_assoc, List.cons_append, List.nil_append]
  rw [parts, List.splitOn_append_cons_self_of_not_mem (by decide),
    List.splitOn_append_cons_self_of_not_mem (slash_not_in_str other)]
  rfl

section
variable (key : String)

def StoresAt (request : Request) : Prop := ∀ fileBytes k, request = .uploadFile fileBytes k → k = key

def RecordsAt (write : Write) : Prop :=
  ∀ submission, write = .account (.insertSubmission submission) → submission.documentKey = key

theorem stores_submitKyc (user : User) (targetTier : Nat) (fileBytes : List UInt8) (submissionId : Uuid) :
    Asks (StoresAt key) (submitKyc user targetTier fileBytes submissionId key) := by
  unfold submitKyc
  apply asks_seq (asks_require _ _)
  intro _
  apply asks_seq (asks_require _ _)
  intro _
  apply asks_seq (asks_require _ _)
  intro _
  apply asks_seq (asks_query _)
  intro existing
  cases existing with
  | some active =>
    dsimp only
    split <;> trivial
  | none =>
    have uploaded : Asks (StoresAt key) (uploadFile fileBytes key) := by
      constructor
      · intro _ k same
        cases same
        rfl
      · exact ⟨fun _ => trivial, trivial⟩
    apply asks_seq uploaded
    intro _
    apply asks_seq
    · exact asks_seq (asks_insertAccount _ _ _) (fun _ => trivial)
    intro submission
    exact asks_seq asks_commit (fun _ => asks_audited _ _)

theorem records_submitKyc (user : User) (targetTier : Nat) (fileBytes : List UInt8) (submissionId : Uuid) :
    Emits (RecordsAt key) (submitKyc user targetTier fileBytes submissionId key) := by
  apply emits_submitKyc
  · intro entry submission same
    cases same
  · intro row keyed submission same
    cases same
    exact keyed

end

/-- The name is made free of '/' and "..", the key has four segments with the two ids in the
    middle, it lies under no other user's prefix, and whatever the request meets, it stores the
    document and records the submission under that key only. -/
theorem documents_stay_under_their_owner (user : User) (targetTier : Nat) (fileBytes : List UInt8)
    (filename : String) (submissionId : Uuid) :
    ('/' ∉ safeName filename.toList ∧ ¬ "..".toList <:+: safeName filename.toList) ∧
    (objectKey user.id submissionId filename).toList.splitOn '/' =
      ["kyc".toList, str user.id, str submissionId, safeName filename.toList] ∧
    (∀ other : Uuid, ("kyc".toList ++ '/' :: str other ++ ['/']) <+:
      (objectKey user.id submissionId filename).toList → other % 2 ^ 128 = user.id % 2 ^ 128) ∧
    Asks (StoresAt (objectKey user.id submissionId filename))
      (submitDocument user targetTier fileBytes filename submissionId) ∧
    Emits (RecordsAt (objectKey user.id submissionId filename))
      (submitDocument user targetTier fileBytes filename submissionId) := by
  refine ⟨⟨safeName_slashless _, safeName_dotless _⟩, key_segments _ _ _, ?_,
    stores_submitKyc _ user targetTier fileBytes submissionId,
    records_submitKyc _ user targetTier fileBytes submissionId⟩
  intro other under
  have segments := prefix_segment under
  rw [key_segments] at segments
  have same : str user.id = str other := by
    simpa using segments
  exact (str_injective same).symm

end PayCoreDocumentKeys
