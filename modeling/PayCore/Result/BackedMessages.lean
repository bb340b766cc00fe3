import PayCore.Proof.BackedSessions
import PayCore.Result.VettedSpendings

/- What Paystack is asked and what Celery is told: nothing of it runs ahead of what is committed. -/
namespace PayCoreBackedMessages
open SessionProgram SessionSystem LoneSessions RelyGuarantee BackedCalls PayCoreTables
open PayCoreSessions PayCoreSupport PayCorePersistence PayCoreTraffic PayCoreSharedBooks
open PayCoreBackings PayCoreBackingRules PayCoreBackedSessions PayCoreVettedSpendings

variable {ι : Type} {cfg : Settings} {issued : Details → String → Prop} {db : Database}
    {traffic : ι → Traffic}
  {T : Running ι}

def ReadBy (traffic : ι → Traffic) (now : Timestamp) : Prop :=
  ∃ i currentUserId order, traffic i = .ordered currentUserId order ∧ utcNowOf order = now

/-- Before the first money has moved, and before Paystack has been told of a bank account, all
is in order. -/
theorem grounded_start (unmoved : db.transactions.rows = []) (untold : db.webhookDeliveries.rows = [])
    (unknown : ∀ a ∈ db.bankAccounts.rows, a.paystackRecipientCode = none) : Grounded issued db where
  earmarked t mem := by
    rw [unmoved] at mem
    cases mem
  announces d mem := by
    rw [untold] at mem
    cases mem
  coded a mem code has := by
    rw [unknown a mem] at has
    cases has

/-- Each request that Paystack gets, and each task that Celery gets, rests on committed rows,
from the call on. -/
theorem every_message_is_backed [DecidableEq ι] (grounded : Grounded issued db) (solvent : Solvent db)
    (positive : ∀ i currentUserId order, traffic i = .ordered currentUserId order → 0 < amountOf order)
    (run : Run (Answered (Issues issued)) (busy cfg db traffic) T) :
    ∀ call ∈ T.calls, Backed cfg (ReadBy traffic) issued call.2 T.db := by
  have verified : ∀ i, Backs cfg (ReadBy traffic) issued ((traffic i).program cfg)
      ⟨db, [], default, Nothing⟩ :=
    fun i => traffic_backs (traffic i) (positive i)
      (fun user order asks => ⟨i, user, order, asks, rfl⟩) grounded solvent
  apply run_backed verified _ run
  exact fun request ws s commit backed => backed_stands (standing_all commit.regular s) backed

section Day

def shopper : User := { id := 4, email := "carol", hashedPassword := "", fullName := "Carol", kycTier := 2 }

def keeper : User :=
  { id := 5, email := "dave", hashedPassword := "", fullName := "Dave", role := .merchant }

/-- Carol with money and a bank account, and the shop of Dave. -/
def marketDb : Database :=
  { emptyDatabase with
    users := ⟨[shopper, keeper], by decide⟩
    wallets := ⟨[{ id := 41, userId := 4, balance := 9000 }, { id := 42, userId := 5 }], by decide⟩
    merchants :=
      ⟨[{ id := 71, userId := 5, businessName := "Shop", webhookUrl := some "https://shop" }], by decide⟩
    bankAccounts := ⟨[⟨51, 4, "Carol", "0123456702", "058", "Bank", true, none, none⟩], by decide⟩ }

/-- She pays the shop and withdraws the rest, and a worker takes the withdrawal up. -/
def marketDay : Fin 3 → Traffic
  | 0 => .ordered 4 (.payMerchant 71 2000 none ⟨103, "p", 81, ⟨0, 0⟩⟩)
  | 1 => .ordered 4 (.initiateWithdrawal 51 7000 ⟨104, "w", ⟨0, 0⟩⟩)
  | _ => .other (.processWithdrawal 104) rfl

def steps (n : Nat) (i : Fin 3) : List (Action (Fin 3) PaystackData) := List.replicate n (.run i)

def course : List (Action (Fin 3) PaystackData) :=
  steps 15 0 ++ [.reply 0 {}] ++ steps 3 0 ++ steps 9 1 ++ [.reply 1 {}] ++ steps 2 2 ++
    [.reply 2 { recipientCode := .str "RCP_2" }] ++ steps 2 2 ++
      [.reply 2 { transferCode := .str "TRF_2" }] ++ steps 3 2

def marketCodes (details : Details) (code : String) : Prop :=
  details = ⟨"Carol", "0123456702", "058"⟩ ∧ code = "RCP_2"

instance (details : Details) (code : String) : Decidable (marketCodes details code) :=
  inferInstanceAs (Decidable (_ ∧ _))

theorem market_grounded : Grounded marketCodes marketDb := grounded_start rfl rfl (by simp [marketDb])

theorem market_positive : ∀ i currentUserId order, marketDay i = .ordered currentUserId order →
    0 < amountOf order := by
  intro i currentUserId order asked
  match i with
  | 0 =>
    cases asked
    decide
  | 1 =>
    cases asked
    decide
  | 2 => cases asked

theorem carols_messages_are_backed : ∃ T : Running (Fin 3),
    T.calls.map (·.2) = [.delay (.deliverMerchantWebhook 81), .delay (.processWithdrawal 104),
      .createTransferRecipient "Carol" "0123456702" "058",
      .initiateTransfer 7000 "RCP_2" "txn_w" "PayCore withdrawal txn_w"] ∧
    ∀ call ∈ T.calls, Backed {} (ReadBy marketDay) marketCodes call.2 T.db := by
  have computed : (schedule (Answered (Issues marketCodes)) (busy {} marketDb marketDay) course).map
      (fun T => T.calls.map (·.2)) =
      some [.delay (.deliverMerchantWebhook 81), .delay (.processWithdrawal 104),
        .createTransferRecipient "Carol" "0123456702" "058",
        .initiateTransfer 7000 "RCP_2" "txn_w" "PayCore withdrawal txn_w"] := by decide +kernel
  obtain ⟨T, run, values⟩ := reached_of_schedule computed
  refine ⟨T, values, every_message_is_backed market_grounded ?_ market_positive run⟩
  simp [Solvent, marketDb]

end Day

end PayCoreBackedMessages
