import PayCore.Service.Receiver

/- How a request to the receiver of Paystack's events ends. -/
namespace PayCoreReceivedWebhooks
open TextCodecs JsonText HexText PayCoreReceiver

variable {env : Environment} {request : Request}

def Signed (env : Environment) (request : Request) : Prop :=
  env.paystackWebhookSecret ≠ "" ∧ request.header "x-paystack-signature" =
    expectedSignature env request.body

/-- The three endings: not signed, signed without an object in the body, signed with one. -/
structure EndsProperly (env : Environment) (request : Request) : Prop where
  unauthorized : ¬ Signed env request → answer env request = (401, [])
  invalid : Signed env request → (∀ entries, loads env.limits request.body ≠ .ok (.dict entries)) →
    answer env request = (422, [])
  accepted : Signed env request → ∀ entries, loads env.limits request.body = .ok (.dict entries) →
    answer env request = (200, [((entries.lookup (codes "event")).getD (.str []),
      (entries.lookup (codes "data")).getD (.dict []))])

/-- A header that is compared is ASCII, and a signed body has an object or is no JSON text, without
    going past a limit of the interpreter. -/
structure Readable (env : Environment) (request : Request) : Prop where
  ascii : env.paystackWebhookSecret = "" ∨ ∀ c ∈ request.header "x-paystack-signature", c < 0x80
  object : Signed env request → ∀ value, loads env.limits request.body = .ok value →
    ∃ entries, value = .dict entries
  withinLimits : Signed env request → loads env.limits request.body ≠ .error .recursionError ∧
    loads env.limits request.body ≠ .error .valueError

theorem hexdigest_ascii (digest : List UInt8) : ∀ c ∈ hexdigest digest, c < 0x80 := by
  intro c mem
  obtain ⟨b, _, within⟩ := List.mem_flatMap.mp mem
  obtain ⟨digit, found, rfl⟩ := List.mem_map.mp within
  have letters : ∀ d ∈ alphabet, code d < 0x80 := by simp [alphabet, code]
  exact letters digit (mem_hexText found)

section Signature
variable {rawBody : List UInt8} {signature : Text}

theorem verify_unset (unset : env.paystackWebhookSecret = "") :
    verifySignature env rawBody signature = pure false := by
  rw [verifySignature, if_pos unset]

theorem verify_ascii (set : env.paystackWebhookSecret ≠ "") (ascii : ∀ c ∈ signature, c < 0x80) :
    verifySignature env rawBody signature = pure (expectedSignature env rawBody == signature) := by
  have all : (expectedSignature env rawBody ++ signature).all (· < 0x80) = true := by
    rw [List.all_append, Bool.and_eq_true]
    exact ⟨List.all_eq_true.mpr fun c mem => decide_eq_true (hexdigest_ascii _ c mem),
      List.all_eq_true.mpr fun c mem => decide_eq_true (ascii c mem)⟩
  rw [verifySignature, if_neg set, compareDigest, if_pos all]

theorem verify_foreign (set : env.paystackWebhookSecret ≠ "") (foreign : ¬ ∀ c ∈ signature, c < 0x80) :
    verifySignature env rawBody signature = throw .typeError := by
  have notAll : ¬ (expectedSignature env rawBody ++ signature).all (· < 0x80) = true := by
    intro all
    apply foreign
    intro c mem
    exact of_decide_eq_true (List.all_eq_true.mp all c (List.mem_append_right _ mem))
  rw [verifySignature, if_neg set, compareDigest, if_neg notAll]

end Signature

section Answers

theorem answer_refused
    (refused : verifySignature env request.body (request.header "x-paystack-signature") = pure false) :
    answer env request = (401, []) := by
  simp only [answer, receivePaystackWebhook, refused]
  rfl

theorem answer_foreign (set : env.paystackWebhookSecret ≠ "")
    (foreign : ¬ ∀ c ∈ request.header "x-paystack-signature", c < 0x80) :
    answer env request = (500, []) := by
  simp only [answer, receivePaystackWebhook, verify_foreign set foreign]
  rfl

theorem verify_signed (signed : Signed env request) :
    verifySignature env request.body (request.header "x-paystack-signature") = pure true := by
  have ascii : ∀ c ∈ expectedSignature env request.body, c < 0x80 := hexdigest_ascii _
  rw [signed.2, verify_ascii signed.1 ascii, beq_self_eq_true]

theorem delay_caught (eventType data : Value) :
    (tryCatch (delay env eventType data) fun _ => pure ()) = modify (· ++ [(eventType, data)]) := by
  unfold delay
  cases env.delayRaises eventType data with
  | none => rfl
  | some text => rfl

theorem answer_object (signed : Signed env request) {entries : List (Text × Value)}
    (loaded : loads env.limits request.body = .ok (.dict entries)) :
    answer env request = (200, [((entries.lookup (codes "event")).getD (.str []),
      (entries.lookup (codes "data")).getD (.dict []))]) := by
  simp only [answer, receivePaystackWebhook, verify_signed signed, parseBody, loaded, delay_caught]
  rfl

theorem answer_other (signed : Signed env request) {value : Value}
    (loaded : loads env.limits request.body = .ok value) (other : ∀ entries, value ≠ .dict entries) :
    answer env request = (500, []) := by
  simp only [answer, receivePaystackWebhook, verify_signed signed, parseBody, loaded]
  cases value with
  | dict entries => exact absurd rfl (other entries)
  | _ => rfl

theorem answer_malformed (signed : Signed env request) {failure : Failure}
    (failed : loads env.limits request.body = .error failure)
    (malformed : failure = .jsonDecodeError ∨ failure = .unicodeDecodeError) :
    answer env request = (422, []) := by
  simp only [answer, receivePaystackWebhook, verify_signed signed, parseBody, failed]
  rcases malformed with rfl | rfl
  · rfl
  · rfl

theorem answer_limit (signed : Signed env request) {failure : Failure}
    (failed : loads env.limits request.body = .error failure)
    (limit : failure = .recursionError ∨ failure = .valueError) : answer env request = (500, []) := by
  simp only [answer, receivePaystackWebhook, verify_signed signed, parseBody, failed]
  rcases limit with rfl | rfl
  · rfl
  · rfl

end Answers

theorem answer_unsigned (unsigned : ¬ Signed env request)
    (ascii : env.paystackWebhookSecret = "" ∨ ∀ c ∈ request.header "x-paystack-signature", c < 0x80) :
    answer env request = (401, []) := by
  apply answer_refused
  by_cases unset : env.paystackWebhookSecret = ""
  · exact verify_unset unset
  · have differs : expectedSignature env request.body ≠ request.header "x-paystack-signature" :=
      fun same => unsigned ⟨unset, same.symm⟩
    rw [verify_ascii unset (ascii.resolve_left unset), beq_eq_false_iff_ne.mpr differs]

theorem failure_cases {failure : Failure} (failed : loads env.limits request.body = .error failure) :
    (failure = .jsonDecodeError ∨ failure = .unicodeDecodeError) ∨
      (failure = .recursionError ∨ failure = .valueError) := by
  cases failure with
  | exhausted => exact absurd failed (loads_not_exhausted env.limits request.body)
  | _ => simp

theorem signed_ascii (signed : Signed env request) :
    ∀ c ∈ request.header "x-paystack-signature", c < 0x80 := by
  rw [signed.2]
  exact hexdigest_ascii _

theorem status_differs {first second : Nat} (differs : first ≠ second)
    (one : answer env request = (first, [])) (other : answer env request = (second, [])) : False :=
  differs (congrArg Prod.fst (one.symm.trans other))

/-- The handler keeps to its three endings exactly on the requests that it can compare and read. -/
theorem webhook_ends_properly_iff (env : Environment) (request : Request) :
    EndsProperly env request ↔ Readable env request := by
  constructor
  · intro ends
    constructor
    · by_contra none
      obtain ⟨set, foreign⟩ := not_or.mp none
      have unsigned : ¬ Signed env request := fun signed => foreign (signed_ascii signed)
      exact status_differs (by decide) (answer_foreign set foreign) (ends.unauthorized unsigned)
    · intro signed value loaded
      by_contra other
      have noDict : ∀ entries, value ≠ .dict entries := fun entries same => other ⟨entries, same⟩
      have unread : ∀ entries, loads env.limits request.body ≠ .ok (.dict entries) := by
        intro entries object
        exact noDict entries (Except.ok.inj (loaded.symm.trans object))
      exact status_differs (by decide) (answer_other signed loaded noDict) (ends.invalid signed unread)
    · intro signed
      have reported : ∀ failure, failure = .recursionError ∨ failure = .valueError →
          loads env.limits request.body ≠ .error failure := by
        intro failure limit failed
        have unread : ∀ entries, loads env.limits request.body ≠ .ok (.dict entries) := by simp [failed]
        exact status_differs (by decide) (answer_limit signed failed limit) (ends.invalid signed unread)
      exact ⟨reported _ (Or.inl rfl), reported _ (Or.inr rfl)⟩
  · intro readable
    constructor
    · intro unsigned
      exact answer_unsigned unsigned readable.ascii
    · intro signed unread
      cases loaded : loads env.limits request.body with
      | ok value =>
        obtain ⟨entries, rfl⟩ := readable.object signed value loaded
        exact absurd loaded (unread entries)
      | error failure =>
        rcases failure_cases loaded with malformed | rfl | rfl
        · exact answer_malformed signed loaded malformed
        · exact absurd loaded (readable.withinLimits signed).1
        · exact absurd loaded (readable.withinLimits signed).2
    · intro signed entries loaded
      exact answer_object signed loaded

/-- A digest of 64 bytes for every body, a header with the byte 0xE9, and a body that is an empty list. -/
def sampleEnv : Environment where
  paystackWebhookSecret := "secret"
  hmacSha512 := fun _ _ => List.replicate 64 0xAB
  limits := { nesting := 1000, intDigits := 4300 }
  delayRaises := fun _ _ => none

def accented : Request := { headers := [("x-paystack-signature", [0xE9])], body := [] }

def emptyList : Request where
  headers := [("x-paystack-signature", (List.replicate 64 [0x61, 0x62]).flatten)]
  body := [0x5B, 0x5D]

theorem an_accented_signature_and_a_signed_list_end_in_500 :
    ¬ EndsProperly sampleEnv accented ∧ ¬ EndsProperly sampleEnv emptyList := by
  constructor
  · intro ends
    have unsigned : ¬ Signed sampleEnv accented := by
      intro signed
      exact absurd (signed_ascii signed 0xE9 (List.mem_singleton.mpr rfl)) (by decide)
    exact status_differs (by decide) rfl (ends.unauthorized unsigned)
  · intro ends
    have signed : Signed sampleEnv emptyList := ⟨by decide, rfl⟩
    have loaded : loads sampleEnv.limits emptyList.body = .ok (.list []) := rfl
    have unread : ∀ entries, loads sampleEnv.limits emptyList.body ≠ .ok (.dict entries) := by simp [loaded]
    exact status_differs (by decide) (answer_other signed loaded (by simp)) (ends.invalid signed unread)

end PayCoreReceivedWebhooks
