import PayCore.Library.Following
import PayCore.Proof.KeyRules

/- A request that returns a key has set it for the merchant that it returns. -/
namespace PayCoreAnsweredKeys
open KeyedTable WriteCounts Following SessionProgram SessionSystem PayCoreTables PayCoreWrites
open PayCoreSessions PayCoreRepositories PayCoreSupport PayCoreMerchants PayCoreApiKeys PayCoreKeyRules

variable {ι : Type} {α β : Type} {draws : ι → KeyDraws} {i : ι} {id : Uuid}

abbrev KeyShared (ι : Type) := Shared ι Database Write
abbrev KeySpot (ι : Type) := Spot ι Database IdentityMap Write Row

def HasSet (i : ι) (id : Uuid) (s : KeyShared ι) : Prop := (i, id) ∈ issued (entries s.log)

/-- Before session `i` has set a key no merchant holds the hash that it drew. -/
def Unheld (draws : ι → KeyDraws) (i : ι) (s : KeyShared ι) : Prop :=
  (∀ id, ¬ HasSet i id s) → ∀ m ∈ s.db.merchants.rows, m.apiKeyHash ≠ (draws i).apiKeyHash

/-- What the others may do while session `i` waits. -/
structure Aside (draws : ι → KeyDraws) (i : ι) (s t : KeyShared ι) : Prop where
  set : ∀ id, HasSet i id t ↔ HasSet i id s
  unheld : Unheld draws i s → Unheld draws i t

theorem aside_refl (s : KeyShared ι) : Aside draws i s s := ⟨fun _ => Iff.rfl, fun unheld => unheld⟩

theorem aside_trans {s t u : KeyShared ι} (first : Aside draws i s t) (next : Aside draws i t u) :
    Aside draws i s u :=
  ⟨fun id => (next.set id).trans (first.set id), fun unheld => next.unheld (first.unheld unheld)⟩

def meanwhile (draws : ι → KeyDraws) (i : ι) :
    World ι Database IdentityMap Write Row Request PaystackData AppError α where
  others _ _ := Aside draws i
  failures := True
  replies _ _ := True

/-- What a session may return: its own key, set for the merchant returned with it. -/
def Answered (draws : ι → KeyDraws) (i : ι) : Except AppError (Merchant × String) → KeyShared ι → Prop
  | .ok (m, key), s => key = (draws i).rawKey ∧ HasSet i m.id s
  | .error _, _ => True

theorem steady_answered : Steady (meanwhile draws i) (Answered draws i) := by
  constructor
  · exact fun _ _ s => aside_refl s
  · exact fun _ _ _ _ _ first next => aside_trans first next
  · rintro ⟨m, key⟩ _ s t aside ⟨own, set⟩
    exact ⟨own, (aside.set m.id).mpr set⟩
  · exact fun _ _ _ _ _ _ => trivial

def Answers (draws : ι → KeyDraws) (i : ι) (p : Tx (Merchant × String)) (v : KeySpot ι) : Prop :=
  surely (meanwhile draws i) i (fun r u => Answered draws i r u.shared) p v

section Rules
variable {v : KeySpot ι}

theorem stmt_answers {rows : List Row} {writes : Database → IdentityMap → List Write}
    {memo : Database → IdentityMap → IdentityMap} {next : Database → IdentityMap → Tx (Merchant × String)}
    {x : AppError}
    (onward : ∀ (u : KeySpot ι) m, Aside draws i v.shared u.shared →
      u.pending = v.pending ++ writes (applyAll v.pending u.shared.db) m →
      Answers draws i (next (applyAll v.pending u.shared.db) m) u) :
    Answers draws i (.stmt rows writes memo next (.raise x)) v := by
  intro s aside
  exact ⟨fun _ => onward ⟨s, _, _, _, _⟩ v.memory aside rfl, fun _ => trivial⟩

theorem query_answers {f : Database → β} {k : β → Tx (Merchant × String)}
    (onward : ∀ u : KeySpot ι, Aside draws i v.shared u.shared → u.pending = v.pending →
      Answers draws i (k (f (applyAll v.pending u.shared.db))) u) : Answers draws i (query f >>= k) v := by
  apply stmt_answers
  intro u _ aside pending
  exact onward u aside (pending.trans (List.append_nil _))

theorem require_answers {condition : Bool} {error : AppError} {k : Unit → Tx (Merchant × String)}
    (onward : Answers draws i (k ()) v) : Answers draws i (require condition error >>= k) v := by
  cases condition with
  | true => exact onward
  | false => trivial

theorem insertAccount_answers {write : AccountWrite} {admitted : Database → Bool}
    {refused : Database → Constraint} {k : Unit → Tx (Merchant × String)}
    (onward : ∀ u : KeySpot ι, .account write ∈ u.pending → Answers draws i (k ()) u) :
    Answers draws i (insertAccount write admitted refused >>= k) v := by
  apply stmt_answers
  intro u _ _ pending
  dsimp only at pending ⊢
  cases free : admitted (applyAll v.pending u.shared.db) with
  | true =>
    apply onward
    rw [pending, free]
    exact List.mem_append_right _ (by simp)
  | false => trivial

theorem create_answers {merchant : Merchant} {k : Merchant → Tx (Merchant × String)}
    (onward : ∀ u : KeySpot ι, .account (.insertMerchant merchant) ∈ u.pending →
      Answers draws i (k merchant) u) :
    Answers draws i (MerchantRepository.create merchant >>= k) v := by
  unfold MerchantRepository.create
  rw [seq_seq]
  exact insertAccount_answers onward

theorem getMerchantProfile_answers {userId : Uuid} {k : Merchant → Tx (Merchant × String)}
    (onward : ∀ (u : KeySpot ι) merchant, Aside draws i v.shared u.shared → u.pending = v.pending →
      merchant ∈ (applyAll v.pending u.shared.db).merchants.rows → Answers draws i (k merchant) u) :
    Answers draws i (getMerchantProfile userId >>= k) v := by
  apply stmt_answers
  intro u _ aside pending
  have same : u.pending = v.pending := pending.trans (List.append_nil _)
  cases found : MerchantRepository.byUserId userId (applyAll v.pending u.shared.db) with
  | none =>
    dsimp only
    rw [found]
    trivial
  | some merchant =>
    dsimp only
    rw [found]
    exact onward u merchant aside same (List.mem_of_find?_eq_some found)

theorem flushAccount_answers {writes : List AccountWrite} {k : Unit → Tx (Merchant × String)}
    (onward : ∀ u : KeySpot ι, u.pending = v.pending ++ writes.map .account → Answers draws i (k ()) u) :
    Answers draws i (flushAccount writes >>= k) v := by
  apply stmt_answers
  intro u _ _ pending
  exact onward u pending

theorem ensureWallet_answers {walletId userId : Uuid} {k : Unit → Tx (Merchant × String)}
    (onward : ∀ u : KeySpot ι, v.pending <+: u.pending → Answers draws i (k ()) u) :
    Answers draws i (ensureWallet walletId userId >>= k) v := by
  apply stmt_answers
  intro u m _ pending
  have same : u.pending = v.pending := pending.trans (List.append_nil _)
  dsimp only
  cases ((WalletRepository.byUserId userId (applyAll v.pending u.shared.db)).map m.wallet) with
  | some wallet => exact onward u (same ▸ List.prefix_refl _)
  | none =>
    apply stmt_answers
    intro t _ _ created
    dsimp only at created ⊢
    split
    · exact onward t (by rw [created, same]; exact List.prefix_append _ _)
    · split <;> trivial

theorem commit_answers {w : Write} {k : Unit → Tx (Merchant × String)} (written : w ∈ v.pending)
    (key : keyOf w = some id) (onward : ∀ u : KeySpot ι, HasSet i id u.shared → Answers draws i (k ()) u) :
    Answers draws i (commit >>= k) v := by
  intro s _
  refine ⟨fun _ => onward _ ?_, fun _ => trivial⟩
  have logged : entries (s.log ++ [(i, v.pending)]) = entries s.log ++ v.pending.map fun w => (i, w) :=
    entries_commit s.log i v.pending
  apply mem_issued.mpr
  exact ⟨w, by rw [logged]; exact List.mem_append_right _ (List.mem_map_of_mem written), key⟩

theorem auditLog_answers {entry : AuditLog} {k : Unit → Tx (Merchant × String)} (set : HasSet i id v.shared)
    (onward : ∀ u : KeySpot ι, HasSet i id u.shared → Answers draws i (k ()) u) :
    Answers draws i (auditLog entry >>= k) v := by
  have caught : ∀ u : KeySpot ι, HasSet i id u.shared → Answers draws i (.rollback (k ())) u := by
    intro u kept s aside
    exact onward _ ((aside.set id).mpr kept)
  intro s aside
  have kept : HasSet i id s := (aside.set id).mpr set
  refine ⟨fun _ => ?_, fun _ => caught _ kept⟩
  intro t later
  have still : HasSet i id t := (later.set id).mpr kept
  refine ⟨fun _ => onward _ ?_, fun _ => caught _ still⟩
  obtain ⟨w, mem, key⟩ := mem_issued.mp still
  apply mem_issued.mpr
  exact ⟨w, by rw [entries_commit]; exact List.mem_append_left _ mem, key⟩

end Rules

section Programs
variable {v : KeySpot ι}

theorem createMerchant_answers (user : User) (businessName : String) :
    Answers draws i (KeyRequest.program (draws i) (.createMerchant user businessName)) v := by
  apply query_answers
  intro v' _ _
  apply require_answers
  apply create_answers
  intro u inserted
  apply ensureWallet_answers
  intro t wallet
  apply flushAccount_answers
  intro t' flushed
  apply commit_answers (flushed ▸ List.mem_append_left _ (wallet.subset inserted)) rfl
  intro u' set
  apply auditLog_answers set
  intro v' kept
  apply auditLog_answers kept
  intro v'' still
  exact ⟨rfl, still⟩

theorem rotateApiKey_answers (userId : Uuid) (first : v.pending = []) (unset : ∀ id, ¬ HasSet i id v.shared)
    (unheld : Unheld draws i v.shared) :
    Answers draws i (KeyRequest.program (draws i) (.rotateApiKey userId)) v := by
  apply getMerchantProfile_answers
  intro u merchant aside _ stored
  rw [first] at stored
  have other : merchant.apiKeyHash ≠ (draws i).apiKeyHash :=
    aside.unheld unheld (fun id set => unset id ((aside.set id).mp set)) merchant stored
  apply stmt_answers
  intro t _ _ flushed
  have differs : changed (some (draws i).apiKeyHash) (some merchant.apiKeyHash) =
      some (draws i).apiKeyHash :=
    if_neg fun same => other (Option.some.inj same).symm
  apply commit_answers (w := .account (.updateMerchant merchant.id _))
  · rw [flushed]
    apply List.mem_append_right
    apply List.mem_map_of_mem
    rw [if_neg]
    · exact List.mem_singleton_self _
    · intro none
      have hash := congrArg MerchantUpdate.apiKeyHash none
      simp [differs] at hash
  · exact if_pos (by simp [differs])
  intro u' set
  apply auditLog_answers set
  intro v' kept
  exact ⟨rfl, kept⟩

end Programs

end PayCoreAnsweredKeys
