import PayCore.Proof.AnsweredKeys

/- The API keys that authenticate: for every merchant that is neither inactive nor deleted the one
   that was issued to it last, and no other text. -/
namespace PayCoreMerchantKeys
open HexText KeyedTable LatestEntries WriteCounts SessionSteps Following SessionProgram SessionSystem
open PayCoreTables PayCoreWrites PayCoreSessions PayCoreRepositories PayCoreMerchants PayCoreApiKeys
open PayCoreKeyRules PayCoreAnsweredKeys

variable {ι : Type} [DecidableEq ι] {draws : ι → KeyDraws} {requests : ι → KeyRequest} {db : Database}
  {S : KeySystem ι}

/-- uuid4 draws 128 bits, and never the same ones twice. -/
structure Uuid4s (draws : ι → KeyDraws) : Prop where
  bounded : ∀ i, (draws i).keyId < 2 ^ 128
  keys : ∀ i j, (draws i).keyId = (draws j).keyId → i = j
  merchants : ∀ i j, (draws i).merchantId = (draws j).merchantId → i = j

/-- bcrypt.checkpw accepts for the hash of a key that key and nothing else. -/
def Checks (verifyApiKey : String → String → Bool) (draws : ι → KeyDraws) : Prop :=
  ∀ i k, verifyApiKey k (draws i).apiKeyHash = true ↔ k = (draws i).rawKey

def programs (requests : ι → KeyRequest) (draws : ι → KeyDraws) (i : ι) : Tx (Merchant × String) :=
  (requests i).program (draws i)

def issues (S : KeySystem ι) : List (ι × Uuid) := issued (entries S.log)

omit [DecidableEq ι] in
theorem tied_moderate {writes : List (ι × Write)} (tied : Tied draws db writes) (id : Uuid)
    (isActive : Bool)
    (deletedAt : Option Timestamp) : Tied draws (moderate id isActive deletedAt db) writes := by
  have stored : ∀ m ∈ (moderate id isActive deletedAt db).merchants.rows, ∃ old ∈ db.merchants.rows,
      old.id = m.id ∧ old.apiKeyHash = m.apiKeyHash ∧ old.apiKeyPrefix = m.apiKeyPrefix := by
    intro m mem
    obtain ⟨old, there, rfl⟩ := mem_update mem
    refine ⟨old, there, ?_⟩
    unfold editAt
    split <;> exact ⟨rfl, rfl, rfl⟩
  constructor
  · intro m mem
    obtain ⟨old, there, sameId, _⟩ := stored m mem
    exact sameId ▸ tied.created old there
  · intro m mem
    obtain ⟨old, there, sameId, sameHash, _⟩ := stored m mem
    exact sameId ▸ sameHash ▸ tied.hashed old there
  · intro m mem
    obtain ⟨old, there, _, _, samePrefix⟩ := stored m mem
    exact samePrefix ▸ tied.prefixed old there

/-- What holds in every run: the rows are tied to the log, and every session keeps to its draws and
    sets one key at most. -/
structure Kept (draws : ι → KeyDraws) (S : KeySystem ι) : Prop where
  tied : Tied draws S.db (entries S.log)
  vouched : Vouched (fun i => Draws (draws i)) S
  within : ∀ i, Within setsKey 1 i S

theorem kept_step {T : KeySystem ι} {a : Action ι PaystackData} (uuids : Uuid4s draws) (kept : Kept draws S)
    (moves : step S a = some T) : Kept draws T := by
  obtain ⟨committed, stepped⟩ := step_stepped moves
  refine ⟨?_, vouched_step stepped kept.vouched, fun i => within_step stepped (kept.within i)⟩
  rw [stepped.db, stepped.log]
  cases committed with
  | none => simpa using kept.tied
  | some ws =>
    have pending := committed_pending stepped
    obtain ⟨left, once, _⟩ := kept.within (actor a)
    have own : ∀ w ∈ ws, Draws (draws (actor a)) w := by
      rw [pending]
      exact kept.vouched.pending (actor a)
    have single : spent setsKey (actor a) S.log + ws.countP setsKey ≤ 1 := by
      rw [pending]
      omega
    have tied := tied_commit kept.tied own uuids.merchants single
    simpa using tied

theorem keyRun_kept (uuids : Uuid4s draws) (empty : db.merchants.rows = [])
    (reached : KeyRun db (programs requests draws) S) : Kept draws S := by
  induction reached with
  | start =>
    refine ⟨?_, initial_vouched fun i => program_draws (requests i), fun i => ?_⟩
    · constructor <;> simp [initial, empty]
    · exact initial_within (program_sets_one_key (requests i))
  | step before moves ih => exact kept_step uuids ih moves
  | moderated before id isActive deletedAt ih =>
    exact ⟨tied_moderate ih.tied id isActive deletedAt,
      ⟨ih.vouched.emits, ih.vouched.pending, ih.vouched.log⟩,
      ih.within⟩

theorem issued_to_one (kept : Kept draws S) {i : ι} {id id' : Uuid} (first : (i, id) ∈ issues S)
    (second : (i, id') ∈ issues S) : id = id' := by
  obtain ⟨w, mem, key⟩ := mem_issued.mp first
  obtain ⟨w', mem', key'⟩ := mem_issued.mp second
  obtain ⟨left, once, _⟩ := kept.within i
  have few : (entries S.log).countP (fun entry => entry.1 = i && setsKey entry.2) ≤ 1 :=
    Nat.le_trans (Nat.le_add_right _ _) (Nat.le_trans (Nat.le_add_right _ _) once)
  have same : (i, w) = (i, w') := by
    apply only_one few mem mem'
    · simp [setsKey, key]
    · simp [setsKey, key']
  cases same
  exact Option.some.inj (key.symm.trans key')

omit [DecidableEq ι] in
theorem rawKey_injective (uuids : Uuid4s draws) {i j : ι}
    (same : (draws i).rawKey = (draws j).rawKey) : i = j := by
  have digits : hexText 32 (draws i).keyId = hexText 32 (draws j).keyId :=
    List.append_cancel_left (String.ofList_injective same)
  have value := hexText_injective digits
  have small : ∀ i, (draws i).keyId % 16 ^ 32 = (draws i).keyId := by
    intro i
    exact Nat.mod_eq_of_lt (Nat.lt_of_lt_of_le (uuids.bounded i) (by norm_num))
  rw [small i, small j] at value
  exact uuids.keys i j value

section Answers
variable {verifyApiKey : String → String → Bool} {i : ι}

theorem kept_unheld (uuids : Uuid4s draws) (checks : Checks verifyApiKey draws)
    (kept : Kept draws S) (i : ι) :
    Unheld draws i (sharedOf S) := by
  intro unset m stored same
  obtain ⟨j, last, hash⟩ := kept.tied.hashed m stored
  have verified : verifyApiKey (draws j).rawKey (draws i).apiKeyHash = true := by
    rw [← same, hash]
    exact (checks j _).mpr rfl
  have self : j = i := rawKey_injective uuids ((checks i _).mp verified)
  exact unset m.id (self ▸ latest_mem last)

omit [DecidableEq ι] in
theorem hasSet_other {j : ι} (other : i ≠ j) (log : List (ι × List Write)) (ws : List Write)
    (s t : Database) (id : Uuid) : HasSet i id ⟨t, log ++ [(j, ws)]⟩ ↔ HasSet i id ⟨s, log⟩ := by
  unfold HasSet
  rw [mem_issued, mem_issued, entries_commit]
  constructor
  · rintro ⟨w, mem, key⟩
    rcases List.mem_append.mp mem with earlier | now
    · exact ⟨w, earlier, key⟩
    · obtain ⟨v, _, same⟩ := List.mem_map.mp now
      exact absurd (congrArg Prod.fst same).symm other
  · rintro ⟨w, mem, key⟩
    exact ⟨w, List.mem_append_left _ mem, key⟩

omit [DecidableEq ι] in
theorem aside_step {T : KeySystem ι} {j : ι} {kind : Kind PaystackData} {committed : Option (List Write)}
    (other : i ≠ j) (stepped : Stepped j kind S T committed) (after : Unheld draws i (sharedOf T)) :
    Aside draws i (sharedOf S) (sharedOf T) := by
  refine ⟨?_, fun _ => after⟩
  intro id
  unfold sharedOf
  rw [stepped.log]
  cases committed with
  | none => simp [HasSet]
  | some ws => exact hasSet_other other S.log ws S.db T.db id

theorem keyRun_answers (uuids : Uuid4s draws) (checks : Checks verifyApiKey draws)
    (empty : db.merchants.rows = []) (reached : KeyRun db (programs requests draws) S) (i : ι) :
    OnCourse (meanwhile draws i) i (Answered draws i) S := by
  induction reached with
  | start =>
    have unset : ∀ id, ¬ HasSet i id (sharedOf (initial db (programs requests draws))) := fun id set => by
      simp [HasSet, sharedOf, initial, issued] at set
    have unheld : Unheld draws i (sharedOf (initial db (programs requests draws))) := by
      intro _ m mem
      simp [sharedOf, initial, empty] at mem
    change Answers draws i ((requests i).program (draws i)) _
    cases requests i with
    | createMerchant user businessName => exact createMerchant_answers user businessName
    | rotateApiKey userId => exact rotateApiKey_answers userId rfl unset unheld
  | @step S T a before moves ih =>
    have kept := kept_step uuids (keyRun_kept uuids empty before) moves
    obtain ⟨committed, stepped⟩ := step_stepped moves
    by_cases self : i = actor a
    · exact onCourse_self steady_answered (self ▸ stepped) (fun _ => trivial)
        (fun _ _ _ _ _ _ => trivial) ih
    · have aside := aside_step self stepped (kept_unheld uuids checks kept i)
      exact onCourse_other steady_answered stepped self aside ih
  | moderated before id isActive deletedAt ih =>
    have kept := keyRun_kept uuids empty (before.moderated id isActive deletedAt)
    exact onCourse_rely steady_answered ih ⟨fun _ => Iff.rfl, fun _ => kept_unheld uuids checks kept i⟩

end Answers

section Authentication
variable {arrange : List Merchant → List Merchant} {verifyApiKey : String → String → Bool}
    {k : String} {m : Merchant}

/-- The key was issued to the merchant, and no other one after it; the merchant is active and not
    deleted. -/
structure Accepts (draws : ι → KeyDraws) (S : KeySystem ι) (k : String) (m : Merchant) : Prop where
  stored : m ∈ S.db.merchants.rows
  active : m.isActive = true
  live : m.deletedAt = none
  last : ∃ i, latest (issues S) m.id = some i ∧ k = (draws i).rawKey

def outcome (arrange : List Merchant → List Merchant) (verifyApiKey : String → String → Bool)
    (S : KeySystem ι) (k : String) : Except AppError Merchant :=
  (runAlone (fun _ => none) (authenticate arrange verifyApiKey k) S.db).1

omit [DecidableEq ι] in
theorem outcome_eq : outcome arrange verifyApiKey S k =
    match (arrange (getActiveByPrefix (apiKeyPrefix k) S.db)).find? fun c =>
    verifyApiKey k c.apiKeyHash with
    | some m => .ok m
    | none => .error (.unauthorized "Invalid API key.") := by
  have seen : outcome arrange verifyApiKey S k = (exec (fun _ => none) (orRaise
      ((arrange (getActiveByPrefix (apiKeyPrefix k) S.db)).find? fun c => verifyApiKey k c.apiKeyHash)
      (.unauthorized "Invalid API key.")) (start S.db)).1 := rfl
  rw [seen]
  cases (arrange (getActiveByPrefix (apiKeyPrefix k) S.db)).find? fun c =>
    verifyApiKey k c.apiKeyHash <;> rfl

omit [DecidableEq ι] in
theorem candidate_iff (checks : Checks verifyApiKey draws) (tied : Tied draws S.db (entries S.log)) :
    m ∈ getActiveByPrefix (apiKeyPrefix k) S.db ∧ verifyApiKey k m.apiKeyHash = true ↔
    Accepts draws S k m := by
  constructor
  · rintro ⟨found, verified⟩
    simp only [getActiveByPrefix, List.mem_filter, Bool.and_eq_true, Option.isNone_iff_eq_none] at found
    obtain ⟨stored, ⟨_, active⟩, live⟩ := found
    obtain ⟨i, last, hash⟩ := tied.hashed m stored
    exact ⟨stored, active, live, i, last, (checks i k).mp (hash ▸ verified)⟩
  · rintro ⟨stored, active, live, i, last, rfl⟩
    obtain ⟨j, last', hash⟩ := tied.hashed m stored
    have same : i = j := Option.some.inj (last.symm.trans last')
    subst same
    constructor
    · have prefixed : m.apiKeyPrefix = apiKeyPrefix (draws i).rawKey := by
        rw [tied.prefixed m stored]
        exact (rawApiKey_starts (draws i).keyId).symm
      simp [getActiveByPrefix, stored, prefixed, active, live]
    · rw [hash]
      exact (checks i _).mpr rfl

theorem accepts_unique (uuids : Uuid4s draws) (kept : Kept draws S) {m' : Merchant}
    (one : Accepts draws S k m) (other : Accepts draws S k m') : m = m' := by
  obtain ⟨stored, _, _, i, last, key⟩ := one
  obtain ⟨stored', _, _, j, last', key'⟩ := other
  have same : i = j := rawKey_injective uuids (key.symm.trans key')
  subst same
  have ids : m.id = m'.id := issued_to_one kept (latest_mem last) (latest_mem last')
  exact same_row_of_clash stored stored' (Keyed.clash_of_key m m' ids)

theorem outcome_iff (uuids : Uuid4s draws) (checks : Checks verifyApiKey draws) (kept : Kept draws S)
    (order : ∀ rows, (arrange rows).Perm rows) : outcome arrange verifyApiKey S k = .ok m ↔
    Accepts draws S k m := by
  have candidate : ∀ c, c ∈ arrange (getActiveByPrefix (apiKeyPrefix k) S.db) ∧
      verifyApiKey k c.apiKeyHash = true ↔
      Accepts draws S k c := by
    intro c
    rw [(order _).mem_iff]
    exact candidate_iff checks kept.tied
  rw [outcome_eq]
  cases found : (arrange (getActiveByPrefix (apiKeyPrefix k) S.db)).find? fun c =>
    verifyApiKey k c.apiKeyHash with
  | none =>
    constructor
    · intro returned
      cases returned
    · intro accepts
      obtain ⟨mem, verified⟩ := (candidate m).mpr accepts
      exact absurd verified (List.find?_eq_none.mp found m mem)
  | some c =>
    have accepted : Accepts draws S k c :=
      (candidate c).mp ⟨List.mem_of_find?_eq_some found, by simpa using List.find?_some found⟩
    constructor
    · intro returned
      exact Except.ok.inj returned ▸ accepted
    · intro accepts
      rw [accepts_unique uuids kept accepts accepted]

omit [DecidableEq ι] in
theorem outcome_refused (refused : ∀ m, outcome arrange verifyApiKey S k ≠ .ok m) :
    outcome arrange verifyApiKey S k = .error (.unauthorized "Invalid API key.") := by
  rw [outcome_eq] at refused ⊢
  cases found : (arrange (getActiveByPrefix (apiKeyPrefix k) S.db)).find? fun c =>
    verifyApiKey k c.apiKeyHash with
  | none => rfl
  | some c => exact absurd (by rw [found]) (refused c)

end Authentication

/-- A key authenticates the active merchant to whom it was issued last, and every other text is
    refused; a session returns the key that it has issued. -/
structure KeysHold (arrange : List Merchant → List Merchant) (verifyApiKey : String → String → Bool)
    (draws : ι → KeyDraws) (S : KeySystem ι) : Prop where
  accepted : ∀ k m, outcome arrange verifyApiKey S k = .ok m ↔ Accepts draws S k m
  refused : ∀ k, (∀ m, ¬ Accepts draws S k m) →
    outcome arrange verifyApiKey S k = .error (.unauthorized "Invalid API key.")
  rotatedOut : ∀ i id, (i, id) ∈ issues S → latest (issues S) id ≠ some i →
    outcome arrange verifyApiKey S (draws i).rawKey = .error (.unauthorized "Invalid API key.")
  own : ∀ i id m, (i, id) ∈ issues S → outcome arrange verifyApiKey S (draws i).rawKey = .ok m → m.id = id
  returned : ∀ i m key, (S.session i).prog = .ret (m, key) → key = (draws i).rawKey ∧ (i, m.id) ∈ issues S

theorem keys_hold {arrange : List Merchant → List Merchant} {verifyApiKey : String → String → Bool}
    (order : ∀ rows, (arrange rows).Perm rows) (uuids : Uuid4s draws) (checks : Checks verifyApiKey draws)
    (empty : db.merchants.rows = []) (reached : KeyRun db (programs requests draws) S) :
    KeysHold arrange verifyApiKey draws S := by
  have kept := keyRun_kept uuids empty reached
  have accepted : ∀ k m, outcome arrange verifyApiKey S k = .ok m ↔ Accepts draws S k m :=
    fun k m => outcome_iff uuids checks kept order
  have own : ∀ i id m, (i, id) ∈ issues S → Accepts draws S (draws i).rawKey m →
      m.id = id ∧ latest (issues S) m.id = some i := by
    intro i id m issued accepts
    obtain ⟨j, last, key⟩ := accepts.last
    have same : i = j := rawKey_injective uuids key
    subst same
    exact ⟨issued_to_one kept (latest_mem last) issued, last⟩
  constructor
  · exact accepted
  · intro k none
    exact outcome_refused fun m returned => none m ((accepted k m).mp returned)
  · intro i id issued stale
    apply outcome_refused
    intro m returned
    obtain ⟨same, last⟩ := own i id m issued ((accepted _ m).mp returned)
    exact stale (same ▸ last)
  · intro i id m issued returned
    exact (own i id m issued ((accepted _ m).mp returned)).1
  · intro i m key ended
    have course := keyRun_answers uuids checks empty reached i
    unfold OnCourse at course
    rw [ended] at course
    exact course

/-- Ada creates her merchant and rotates its key. -/
def owner : User := { id := 1, email := "ada@x.ng", hashedPassword := "h", fullName := "Ada" }

def keyRequests : Bool → KeyRequest
  | false => .createMerchant owner "Ada Stores"
  | true => .rotateApiKey 1

def keyDraws : Bool → KeyDraws
  | false => ⟨10, 20, 30, "$2b$" ++ rawApiKey 30, "s"⟩
  | true => ⟨11, 21, 31, "$2b$" ++ rawApiKey 31, "s"⟩

def matching (rawKey hash : String) : Bool := hash == "$2b$" ++ rawKey

theorem keyRun_run {S T : KeySystem ι} (reached : KeyRun db (programs requests draws) S)
    (run : Run Anyhow S T) :
    KeyRun db (programs requests draws) T := by
  induction run with
  | start => exact reached
  | next _ _ moves ih => exact .step ih moves

theorem matching_iff (k other : String) : matching k ("$2b$" ++ other) = true ↔ k = other := by
  unfold matching
  rw [beq_iff_eq, String.append_right_inj]
  exact eq_comm

theorem a_rotated_key_takes_over : ∃ S, KeyRun emptyDatabase (programs keyRequests keyDraws) S ∧
    KeysHold id matching keyDraws S ∧ (outcome id matching S (rawApiKey 31)).map (·.id) = .ok 10 ∧
    outcome id matching S (rawApiKey 30) = .error (.unauthorized "Invalid API key.") := by
  have computed : (schedule Anyhow (initial emptyDatabase (programs keyRequests keyDraws))
      (List.replicate 10 (.run false) ++ List.replicate 5 (.run true))).map (fun S : KeySystem Bool =>
        ((outcome id matching S (rawApiKey 31)).map (·.id),
          outcome id matching S (rawApiKey 30))) =
      some (.ok 10, .error (.unauthorized "Invalid API key.")) := by decide +kernel
  obtain ⟨S, run, values⟩ := reached_of_schedule computed
  obtain ⟨new, old⟩ := Prod.mk.inj values
  have reached := keyRun_run .start run
  refine ⟨S, reached, keys_hold (fun rows => List.Perm.refl rows) ?_ ?_ rfl reached, new, old⟩
  · constructor <;> decide
  · intro i k
    cases i <;> exact matching_iff k _

end PayCoreMerchantKeys
