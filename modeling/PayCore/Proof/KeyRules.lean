import PayCore.Library.LatestEntries
import PayCore.Library.WriteCounts
import PayCore.Proof.RoleRules
import PayCore.Service.ApiKeys

/- Which key each merchant has: the rows of merchants against the commits that have set their keys. -/
namespace PayCoreKeyRules
open KeyedTable LatestEntries WriteCounts SessionProgram SessionSystem PayCoreTables PayCoreWrites
open PayCoreSessions PayCoreRepositories PayCoreSupport PayCoreMerchants PayCoreApiKeys
open PayCoreRegularity PayCoreRoleRules

variable {ι : Type} {draws : ι → KeyDraws} {db : Database} {writes : List (ι × Write)}

def keyOf : Write → Option Uuid
  | .account (.insertMerchant m) => some m.id
  | .account (.updateMerchant id set) => if set.apiKeyHash.isSome then some id else none
  | _ => none

def setsKey (w : Write) : Bool := (keyOf w).isSome

/-- Who has set a key, and whose, in the order of the commits. -/
def issued (writes : List (ι × Write)) : List (ι × Uuid) :=
  writes.filterMap fun entry => (keyOf entry.2).map fun id => (entry.1, id)

/-- What a request may write to a merchant: only its own id, hash and prefix. -/
def Draws (own : KeyDraws) : Write → Prop
  | .account (.insertMerchant m) =>
      m.id = own.merchantId ∧ m.apiKeyHash = own.apiKeyHash ∧ m.apiKeyPrefix = "pk_live_"
  | .account (.updateMerchant _ set) =>
      (∀ hash ∈ set.apiKeyHash, hash = own.apiKeyHash) ∧ ∀ keyPrefix ∈ set.apiKeyPrefix,
        keyPrefix = "pk_live_"
  | _ => True

/-- Every merchant was created by the request that drew its id, and holds the hash that was issued
    to it last and the prefix of all keys. -/
structure Tied (draws : ι → KeyDraws) (db : Database) (writes : List (ι × Write)) : Prop where
  created : ∀ m ∈ db.merchants.rows, ∃ i, (i, m.id) ∈ issued writes ∧ m.id = (draws i).merchantId
  hashed : ∀ m ∈ db.merchants.rows, ∃ i, latest (issued writes) m.id = some i ∧
    m.apiKeyHash = (draws i).apiKeyHash
  prefixed : ∀ m ∈ db.merchants.rows, m.apiKeyPrefix = "pk_live_"

theorem issued_write (writes : List (ι × Write)) (i : ι) (w : Write) :
    issued (writes ++ [(i, w)]) = issued writes ++ ((keyOf w).map fun id => (i, id)).toList := by
  cases key : keyOf w <;> simp [issued, key]

theorem mem_issued {i : ι} {id : Uuid} : (i, id) ∈ issued writes ↔ ∃ w, (i, w) ∈ writes ∧
    keyOf w = some id := by
  simp only [issued, List.mem_filterMap, Option.map_eq_some_iff, Prod.mk.injEq]
  constructor
  · rintro ⟨⟨j, w⟩, mem, id', key, rfl, rfl⟩
    exact ⟨w, mem, key⟩
  · rintro ⟨w, mem, key⟩
    exact ⟨(i, w), mem, id, key, rfl, rfl⟩

theorem merchants_kept (db : Database) {w : Write} (insertion : ∀ m, w ≠ .account (.insertMerchant m))
    (update : ∀ id set, w ≠ .account (.updateMerchant id set)) :
    (applyWrite w db).merchants = db.merchants ∧ keyOf w = none := by
  cases w with
  | account w =>
    cases w with
    | insertMerchant m => exact absurd rfl (insertion m)
    | updateMerchant id set => exact absurd rfl (update id set)
    | _ => exact ⟨rfl, rfl⟩
  | _ => exact ⟨rfl, rfl⟩

theorem tied_insert {i : ι} {row : Merchant} (tied : Tied draws db writes)
    (own : Draws (draws i) (.account (.insertMerchant row)))
    (fresh : ∀ i j, (draws i).merchantId = (draws j).merchantId → i = j)
    (first : ∀ id, (i, id) ∉ issued writes) :
    Tied draws (applyWrite (.account (.insertMerchant row)) db)
    (writes ++ [(i, .account (.insertMerchant row))]) := by
  obtain ⟨ownId, ownHash, ownPrefix⟩ := own
  have others : ∀ m ∈ db.merchants.rows, m.id ≠ row.id := by
    intro m mem same
    obtain ⟨j, logged, drawn⟩ := tied.created m mem
    have self : i = j := fresh i j (by rw [← ownId, ← same, drawn])
    exact first m.id (self ▸ logged)
  have entry : issued (writes ++ [(i, .account (.insertMerchant row))]) = issued writes ++ [(i, row.id)] :=
    issued_write writes i _
  have stored : ∀ m ∈ (db.merchants.insert row).rows, m ∈ db.merchants.rows ∨ m = row := by
    intro m mem
    cases free : db.merchants.admits row with
    | true =>
      rw [insert_rows free] at mem
      exact (List.mem_append.mp mem).imp_right List.mem_singleton.mp
    | false =>
      rw [insert_refused free] at mem
      exact Or.inl mem
  constructor
  · intro m mem
    rw [entry]
    rcases stored m mem with old | rfl
    · obtain ⟨j, logged, drawn⟩ := tied.created m old
      exact ⟨j, List.mem_append_left _ logged, drawn⟩
    · exact ⟨i, by simp, ownId⟩
  · intro m mem
    rw [entry, latest_snoc]
    rcases stored m mem with old | rfl
    · rw [if_neg (Ne.symm (others m old))]
      exact tied.hashed m old
    · exact ⟨i, if_pos rfl, ownHash⟩
  · intro m mem
    rcases stored m mem with old | rfl
    · exact tied.prefixed m old
    · exact ownPrefix

theorem tied_update {i : ι} {id : Uuid} {set : MerchantUpdate} (tied : Tied draws db writes)
    (own : Draws (draws i) (.account (.updateMerchant id set))) :
    Tied draws (applyWrite (.account (.updateMerchant id set)) db)
      (writes ++ [(i, .account (.updateMerchant id set))]) := by
  obtain ⟨ownHash, ownPrefix⟩ := own
  have stored : ∀ m ∈ (db.merchants.update id (merchantEdit set)).rows,
      ∃ old ∈ db.merchants.rows, m = editAt id (merchantEdit set) old := fun m mem => mem_update mem
  constructor
  · intro m mem
    obtain ⟨old, there, rfl⟩ := stored m mem
    obtain ⟨j, logged, drawn⟩ := tied.created old there
    have key : (editAt id (merchantEdit set) old).id = old.id := editAt_key id (merchantEdit set) old
    rw [issued_write, key]
    exact ⟨j, List.mem_append_left _ logged, drawn⟩
  · intro m mem
    obtain ⟨old, there, rfl⟩ := stored m mem
    obtain ⟨j, last, hash⟩ := tied.hashed old there
    have key : (editAt id (merchantEdit set) old).id = old.id := editAt_key id (merchantEdit set) old
    rw [issued_write, key]
    cases given : set.apiKeyHash with
    | none =>
      refine ⟨j, by simpa [keyOf, given] using last, ?_⟩
      unfold editAt
      split
      · simpa [merchantEdit, given] using hash
      · exact hash
    | some given' =>
      have entry : ((keyOf (.account (.updateMerchant id set))).map fun id => (i, id)).toList =
          [(i, id)] := by
        simp [keyOf, given]
      rw [entry, latest_snoc]
      by_cases itself : old.id = id
      · refine ⟨i, if_pos itself.symm, ?_⟩
        have edited : editAt id (merchantEdit set) old = (merchantEdit set).on old := if_pos itself
        rw [edited, ← ownHash given' given]
        simp [merchantEdit, given]
      · refine ⟨j, by rw [if_neg (Ne.symm itself)]; exact last, ?_⟩
        have unedited : editAt id (merchantEdit set) old = old := if_neg itself
        rw [unedited]
        exact hash
  · intro m mem
    obtain ⟨old, there, rfl⟩ := stored m mem
    have before := tied.prefixed old there
    unfold editAt
    split
    · cases given : set.apiKeyPrefix with
      | none => simpa [merchantEdit, given] using before
      | some keyPrefix => simpa [merchantEdit, given] using ownPrefix keyPrefix given
    · exact before

theorem tied_write {i : ι} {w : Write} (tied : Tied draws db writes) (own : Draws (draws i) w)
    (fresh : ∀ i j, (draws i).merchantId = (draws j).merchantId → i = j)
    (first : setsKey w = true → ∀ id, (i, id) ∉ issued writes) :
    Tied draws (applyWrite w db) (writes ++ [(i, w)]) := by
  by_cases insertion : ∃ m, w = .account (.insertMerchant m)
  · obtain ⟨m, rfl⟩ := insertion
    exact tied_insert tied own fresh (first rfl)
  by_cases update : ∃ id set, w = .account (.updateMerchant id set)
  · obtain ⟨id, set, rfl⟩ := update
    exact tied_update tied own
  obtain ⟨merchants, silent⟩ := merchants_kept db (fun m same => insertion ⟨m, same⟩)
    (fun id set same => update ⟨id, set, same⟩)
  have same : issued (writes ++ [(i, w)]) = issued writes := by simp [issued_write, silent]
  constructor
  · rw [merchants, same]
    exact tied.created
  · rw [merchants, same]
    exact tied.hashed
  · rw [merchants]
    exact tied.prefixed

/-- The commit of a session that sets one key at most. -/
theorem tied_commit [DecidableEq ι] {i : ι} {ws : List Write} (tied : Tied draws db writes)
    (own : ∀ w ∈ ws, Draws (draws i) w)
    (fresh : ∀ i j, (draws i).merchantId = (draws j).merchantId → i = j)
    (once : writes.countP (fun entry => entry.1 = i && setsKey entry.2) + ws.countP setsKey ≤ 1) :
    Tied draws (applyAll ws db) (writes ++ ws.map fun w => (i, w)) := by
  induction ws generalizing db writes with
  | nil => simpa using tied
  | cons w ws ih =>
    have next : Tied draws (applyWrite w db) (writes ++ [(i, w)]) := by
      apply tied_write tied (own w (by simp)) fresh
      intro sets id logged
      obtain ⟨v, mem, key⟩ := mem_issued.mp logged
      have counted : 0 < writes.countP (fun entry => entry.1 = i && setsKey entry.2) :=
        List.countP_pos_iff.mpr ⟨(i, v), mem, by simp [setsKey, key]⟩
      rw [List.countP_cons_of_pos sets] at once
      omega
    have rest := ih next (fun v mem => own v (List.mem_cons_of_mem w mem)) ?_
    · simpa [List.append_assoc] using rest
    · rw [List.countP_append]
      cases sets : setsKey w <;> simp [sets] at once ⊢ <;> omega

section Programs
variable {own : KeyDraws}

theorem rawApiKey_starts (id : Uuid) : apiKeyPrefix (rawApiKey id) = "pk_live_" := by
  have start : ∀ l : List Char, ("pk_live_".toList ++ l).take 8 = "pk_live_".toList := by
    intro l
    rw [List.take_append_of_le_length (by decide)]
    decide
  unfold apiKeyPrefix rawApiKey
  rw [String.toList_ofList, start]
  exact String.ofList_toList

theorem emits_keyRotated {P : Write → Prop} (logs : ∀ l, P (.insertAuditLog l)) (merchant : Merchant)
    (rawKey : String) :
    Emits P (do
      commit
      auditLog { actorId := some merchant.userId, actorType := .user, action := "api_key.generated",
                 targetType := some "merchant", targetId := some merchant.id }
      pure (merchant, rawKey)) :=
  emits_seq emits_commit (fun _ => emits_audited logs _ _)

theorem draws_createMerchant (user : User) (businessName : String) :
    Emits (Draws own) (KeyRequest.program own (.createMerchant user businessName)) := by
  apply emits_createMerchant
  · exact ⟨rfl, rfl, rawApiKey_starts own.keyId⟩
  · exact fun _ _ => trivial
  · trivial
  · exact fun _ => trivial

theorem draws_rotateApiKey (userId : Uuid) :
    Emits (Draws own) (KeyRequest.program own (.rotateApiKey userId)) := by
  apply emits_seq (emits_getMerchantProfile _)
  intro merchant
  apply emits_seq
  · apply emits_seq
    · apply emits_flushAccount
      intro w mem
      split at mem
      · cases mem
      · rw [List.mem_singleton.mp mem]
        constructor
        · intro hash given
          simp only [Option.bind_some, changed] at given
          split at given
          · cases given
          · exact (Option.mem_some_iff.mp given).symm
        · intro keyPrefix given
          simp only [Option.bind_some, changed] at given
          split at given
          · cases given
          · rw [← Option.mem_some_iff.mp given]
            exact rawApiKey_starts own.keyId
    · exact fun _ => trivial
  intro updated
  exact emits_keyRotated (fun _ => trivial) updated _

theorem atMost_flush {writes : List AccountWrite} (single : writes.length ≤ 1) :
    AtMost setsKey 1 (flushAccount writes) := by
  refine ⟨?_, trivial⟩
  intro s m
  have few : (writes.map Write.account).countP setsKey ≤ 1 :=
    Nat.le_trans List.countP_le_length (by simpa using single)
  exact ⟨0, few, trivial⟩

theorem atMost_insert (write : AccountWrite) (admitted : Database → Bool)
    (refused : Database → Constraint) :
    AtMost setsKey 1 (insertAccount write admitted refused) := by
  refine ⟨?_, trivial⟩
  intro s m
  have few : (if admitted s then [Write.account write] else []).countP setsKey ≤ 1 :=
    Nat.le_trans List.countP_le_length (by split <;> simp)
  refine ⟨0, few, ?_⟩
  dsimp only
  split <;> trivial

theorem program_sets_one_key (request : KeyRequest) : AtMost setsKey 1 (request.program own) := by
  cases request with
  | createMerchant user businessName =>
    apply atMost_before (emits_query _)
    intro existing
    apply atMost_before (emits_require _ _)
    intro _
    apply atMost_seq (n := 1) (m := 0)
    · apply atMost_seq (n := 1) (m := 0) (atMost_insert _ _ _)
      exact fun _ => trivial
    · intro merchant
      apply atMost_none
      apply emits_merchantCreated
      · exact fun _ _ => rfl
      · rfl
      · exact fun _ => rfl
  | rotateApiKey userId =>
    apply atMost_before (emits_getMerchantProfile _)
    intro merchant
    apply atMost_seq (n := 1) (m := 0)
    · apply atMost_seq (n := 1) (m := 0)
      · apply atMost_flush
        split <;> simp
      · exact fun _ => trivial
    · intro updated
      apply atMost_none
      apply emits_keyRotated
      exact fun _ => rfl

theorem program_draws (request : KeyRequest) : Emits (Draws own) (request.program own) := by
  cases request with
  | createMerchant user businessName => exact draws_createMerchant user businessName
  | rotateApiKey userId => exact draws_rotateApiKey userId

end Programs

end PayCoreKeyRules
