import PayCore.Proof.CountedAmounts
import PayCore.Result.BankRuns

/- The Decimals of the services against the kobo of the other modules: the amounts that go to
Paystack and come back, and the balances over whole runs. -/
namespace PayCoreDecimalBooks
open DecimalArithmetic KeyedTable SessionProgram SessionSystem RelyGuarantee EscrowBank
open PayCoreTables PayCoreWrites PayCoreRepositories PayCorePersistence PayCoreCommits
open PayCoreSerialJobs PayCoreReconciliation PayCoreProperCommits PayCoreSharedBooks
open PayCoreBankMoves PayCoreBankRuns PayCoreDecimalAmounts PayCoreCountedAmounts

section RoundTrip

/-- What Paystack is asked for is the amount in kobo, and what is credited when it reports that
number back is the amount again, as the column stores it. The checks on the amount decide as
they do on its kobo. -/
theorem kobo_round_trip {amount : Decimal} {n : Int} (counts : Counts amount n)
    (short : |n| < 10 ^ precision) :
    amountKobo amount = n ∧
      (∃ credited, chargeAmount (amountKobo amount) = some credited ∧ Counts credited n ∧
        stored credited = stored amount) ∧
      (belowMinimum amount = true ↔ n < PayCoreFunding.minimumFunding) ∧
      ∀ limit : Nat, (overLimit limit amount = true ↔ PayCoreSupport.kobo limit < n) ∧
        ∀ dailySum spent, Counts dailySum spent → |spent + n| < 10 ^ precision →
          (overDailyLimit limit dailySum amount = true ↔ PayCoreSupport.kobo limit < spent + n) := by
  have asked := counts_kobo counts short
  obtain ⟨credited, divided, same⟩ := counts_charge short
  refine ⟨asked, ⟨credited, ?_, same, ?_⟩, counts_less counts counts_hundredths, ?_⟩
  · rw [asked]
    exact divided
  · rw [counts_stored same, counts_stored counts]
  · intro limit
    have bound : Counts (ofInt limit) (PayCoreSupport.kobo limit) := counts_ofInt limit
    refine ⟨counts_less bound counts, ?_⟩
    intro dailySum spent today within
    exact counts_less bound (counts_add today counts within)

theorem counts_spelled : Counts ⟨150500, -3⟩ 15050 := by
  unfold Counts value
  norm_num

theorem three_places_come_back : amountKobo ⟨150500, -3⟩ = 15050 ∧
    (∃ credited, chargeAmount (amountKobo ⟨150500, -3⟩) = some credited ∧ Counts credited 15050 ∧
      stored credited = stored ⟨150500, -3⟩) ∧
    belowMinimum ⟨150500, -3⟩ = false ∧ overLimit 150 ⟨150500, -3⟩ = true := by
  obtain ⟨asked, credited, minimum, limits⟩ := kobo_round_trip counts_spelled (by decide)
  refine ⟨asked, credited, ?_, (limits 150).1.mpr (by decide)⟩
  rw [← Bool.not_eq_true, minimum]
  decide

/- A digit more than the precision is lost. -/
example : chargeAmount (10 ^ 28 + 1) = some ⟨10 ^ 27, -1⟩ := by decide +kernel

end RoundTrip

structure Amount where
  decimal : Decimal
  kobo : Int
  counts : Counts decimal kobo
  positive : 0 < kobo
  short : kobo < 10 ^ 20

/-- What moves money. A charge reports any integer, within what a Decimal can hold. -/
inductive Step (α : Type) where
  | credit (a : α) (amountKobo : Int) (short : |amountKobo| < 10 ^ 27)
  | transfer (sender recipient : α) (apart : sender ≠ recipient) (amount : Amount)
  | hold (a : α) (amount : Amount)
  | refund (a : α) (amount : Amount)
  | payOut (a : α) (kobo : Int)

section Bank
variable {α : Type}

def Step.move : Step α → Move α
  | .credit a amountKobo _ => .deposit a amountKobo
  | .transfer sender recipient _ amount => .transfer sender recipient amount.kobo
  | .hold a amount => .pledge a amount.kobo
  | .refund a amount => .release a amount.kobo
  | .payOut a kobo => .payOut a kobo

noncomputable def afterStep (bank : Bank α) (step : Step α) : Bank α := after bank step.move

def Holdable (bank : Bank α) : Prop := ∀ a, 0 ≤ bank.balance a ∧ bank.balance a < 10 ^ 20

/-- The columns show the balances of the bank. -/
structure Shows (balances : Balances α) (bank : Bank α) : Prop where
  counts : ∀ a, Counts (balances a) (bank.balance a)
  holdable : Holdable bank

variable {balances : Balances α} {bank next : Bank α} {a : α} {n : Int}

theorem balance_raised (bank : Bank α) (a : α) (n : Int) :
    (bank.balance + Finsupp.single a n) a = bank.balance a + n ∧
      ∀ c, c ≠ a → (bank.balance + Finsupp.single a n) c = bank.balance c := by
  constructor
  · rw [Finsupp.add_apply, Finsupp.single_eq_same]
  · intro c other
    rw [Finsupp.add_apply, Finsupp.single_eq_of_ne other, add_zero]

theorem balance_lowered (bank : Bank α) (a : α) (n : Int) :
    (bank.balance - Finsupp.single a n) a = bank.balance a - n ∧
      ∀ c, c ≠ a → (bank.balance - Finsupp.single a n) c = bank.balance c := by
  constructor
  · rw [Finsupp.sub_apply, Finsupp.single_eq_same]
  · intro c other
    rw [Finsupp.sub_apply, Finsupp.single_eq_of_ne other, sub_zero]

theorem short_sum {x y : Int} (left : 0 ≤ x ∧ x < 10 ^ 20) (right : |y| < 10 ^ 27) :
    |x + y| < 10 ^ precision := by
  have bounds := abs_lt.mp right
  change |x + y| < 10 ^ 28
  apply abs_lt.mpr
  omega

theorem short_amount (x : Amount) : |x.kobo| < 10 ^ 27 := by
  have positive := x.positive
  have short := x.short
  apply abs_lt.mpr
  omega

theorem short_difference (shows : Shows balances bank) (x : Amount) :
    |bank.balance a - x.kobo| < 10 ^ precision := by
  have negated := short_amount x
  rw [← abs_neg] at negated
  rw [sub_eq_add_neg]
  exact short_sum (shows.holdable a) negated

theorem insufficient_iff (shows : Shows balances bank) (x : Amount) :
    less (balances a) x.decimal = true ↔ bank.balance a < x.kobo :=
  counts_less (shows.counts a) x.counts

theorem overdrawn (next_balance : next.balance a = bank.balance a - n)
    (short : bank.balance a < n) : ¬ Holdable next := by
  intro holdable
  have here := (holdable a).1
  omega

end Bank

section Steps
variable {α : Type} [DecidableEq α]

def Step.decimally (balances : Balances α) : Step α → Option (Balances α)
  | .credit a amountKobo _ => PayCoreDecimalAmounts.credit balances a amountKobo
  | .transfer sender recipient _ amount =>
      PayCoreDecimalAmounts.transfer balances sender recipient amount.decimal
  | .hold a amount => PayCoreDecimalAmounts.hold balances a amount.decimal
  | .refund a amount => PayCoreDecimalAmounts.refund balances a amount.decimal
  -- The balance was set when the money was held.
  | .payOut _ _ => some balances

def runDecimally (balances : Balances α) (steps : List (Step α)) : Option (Balances α) :=
  steps.foldlM Step.decimally balances

variable {balances : Balances α} {bank : Bank α} {a : α} {d : Decimal} {n : Int}

theorem updateBalance_counts (counts : Counts d n) : updateBalance balances a d =
    if WalletRepository.storable n then some (put balances a ⟨n, -2⟩) else none := by
  have negative : less ⟨n, -2⟩ (ofInt 0) = true ↔ n < 0 := counts_less counts_hundredths (counts_ofInt 0)
  unfold updateBalance
  rw [counts_stored counts]
  by_cases within : n.natAbs < 10 ^ 20
  · rw [if_pos within]
    change (if less ⟨n, -2⟩ (ofInt 0) = true then none else some (put balances a ⟨n, -2⟩)) = _
    by_cases below : n < 0
    · rw [if_pos (negative.mpr below), if_neg (fun held => absurd held.1 (by omega))]
    · rw [if_neg (fun less => below (negative.mp less)), if_pos ⟨by omega, by omega⟩]
  · have outside : ¬ WalletRepository.storable n := by
      rintro ⟨covered, short⟩
      omega
    rw [if_neg within, if_neg outside]
    rfl

theorem shows_put (next : Bank α) (shows : ∀ c, c ≠ a → Counts (balances c) (next.balance c))
    (own : next.balance a = n) :
    ∀ c, Counts (put balances a ⟨n, -2⟩ c) (next.balance c) := by
  intro c
  by_cases here : c = a
  · rw [here, own, put, Function.update_self]
    exact counts_hundredths
  · rw [put, Function.update_of_ne here]
    exact shows c here

/-- One balance is set: the step goes through just when the column may hold it. -/
theorem set_shows (next : Bank α) (shows : Shows balances bank) (counts : Counts d n)
    (own : next.balance a = n) (others : ∀ c, c ≠ a → next.balance c = bank.balance c) :
    match updateBalance balances a d with
    | some after => Shows after next
    | none => ¬ Holdable next := by
  rw [updateBalance_counts counts]
  by_cases held : WalletRepository.storable n
  · rw [if_pos held]
    constructor
    · apply shows_put next _ own
      intro c other
      rw [others c other]
      exact shows.counts c
    · intro c
      by_cases here : c = a
      · rw [here, own]
        exact held
      · rw [others c here]
        exact shows.holdable c
  · rw [if_neg held]
    intro holdable
    have here := holdable a
    rw [own] at here
    exact held here

/-- A step in Decimals goes through just when the columns may hold what the bank has after it,
and shows it then. -/
theorem step_shows (step : Step α) (shows : Shows balances bank) :
    match step.decimally balances with
    | some after => Shows after (afterStep bank step)
    | none => ¬ Holdable (afterStep bank step) := by
  cases step with
  | credit a n short =>
    obtain ⟨own, others⟩ := balance_raised bank a n
    have within : |n| < 10 ^ precision := short.trans (by decide)
    obtain ⟨amount, divided, counts⟩ := counts_charge within
    have same : Step.decimally balances (.credit a n short) =
        updateBalance balances a (add precision (balances a) amount) := by
      simp [Step.decimally, PayCoreDecimalAmounts.credit, divided]
    rw [same]
    exact set_shows _ shows
      (counts_add (shows.counts a) counts (short_sum (shows.holdable a) short)) own others
  | refund a x =>
    obtain ⟨own, others⟩ := balance_raised bank a x.kobo
    exact set_shows _ shows
      (counts_add (shows.counts a) x.counts (short_sum (shows.holdable a) (short_amount x))) own others
  | hold a x =>
    obtain ⟨own, others⟩ := balance_lowered bank a x.kobo
    by_cases short : bank.balance a < x.kobo
    · have refused : Step.decimally balances (.hold a x) = none :=
        if_pos ((insufficient_iff shows x).mpr short)
      rw [refused]
      exact overdrawn own short
    · have accepted : Step.decimally balances (.hold a x) =
          updateBalance balances a (sub precision (balances a) x.decimal) :=
        if_neg (fun less => short ((insufficient_iff shows x).mp less))
      rw [accepted]
      exact set_shows _ shows (counts_sub (shows.counts a) x.counts (short_difference shows x)) own others
  | payOut a n => exact ⟨shows.counts, shows.holdable⟩
  | transfer a b apart x =>
    obtain ⟨own, others⟩ := balance_lowered bank a x.kobo
    -- The bank between the two updates.
    obtain ⟨middle, lowered⟩ : ∃ middle : Bank α,
        middle = { bank with balance := bank.balance - Finsupp.single a x.kobo } :=
      ⟨_, rfl⟩
    have there : afterStep bank (.transfer a b apart x) =
        { middle with balance := middle.balance + Finsupp.single b x.kobo } := by
      rw [lowered]
      rfl
    obtain ⟨gained, beside⟩ := balance_raised middle b x.kobo
    have paid : middle.balance a = bank.balance a - x.kobo := by rw [lowered, own]
    have recipient : middle.balance b = bank.balance b := by
      rw [lowered]
      exact others b (Ne.symm apart)
    by_cases short : bank.balance a < x.kobo
    · have refused : Step.decimally balances (.transfer a b apart x) = none :=
        if_pos ((insufficient_iff shows x).mpr short)
      rw [refused, there]
      apply overdrawn _ short
      rw [← paid]
      exact beside a apart
    · have accepted : Step.decimally balances (.transfer a b apart x) =
          (updateBalance balances a (sub precision (balances a) x.decimal)).bind
            (fun after => updateBalance after b (add precision (balances b) x.decimal)) :=
        if_neg (fun less => short ((insufficient_iff shows x).mp less))
      have first :=
        set_shows middle shows (counts_sub (shows.counts a) x.counts (short_difference shows x)) paid
        (by rw [lowered]; exact others)
      rw [accepted, there]
      rw [updateBalance_counts (counts_sub (shows.counts a) x.counts (short_difference shows x))] at first ⊢
      have positive := x.positive
      have here := shows.holdable a
      rw [if_pos ⟨by omega, by omega⟩] at first ⊢
      apply set_shows _ first _ gained beside
      rw [recipient]
      exact counts_add (shows.counts b) x.counts (short_sum (shows.holdable b) (short_amount x))

/-- Over any run the Decimals show what the bank has, to the kobo. They stop where a balance
would be negative or reach NGN 10^18, and nowhere else. -/
theorem run_shows (steps : List (Step α)) (shows : Shows balances bank) :
    match runDecimally balances steps with
    | some after => GuardedRuns.Along afterStep (fun s step => Holdable (afterStep s step)) bank steps ∧
        Shows after (GuardedRuns.run afterStep bank steps)
    | none => ¬ GuardedRuns.Along afterStep (fun s step => Holdable (afterStep s step)) bank steps := by
  induction steps generalizing balances bank with
  | nil => exact ⟨trivial, shows⟩
  | cons step rest ih =>
    have first := step_shows step shows
    have split : runDecimally balances (step :: rest) = (step.decimally balances).bind
        (fun after => runDecimally after rest) := rfl
    rw [split]
    cases taken : step.decimally balances with
    | none =>
      rw [taken] at first
      exact fun along => first along.1
    | some after =>
      rw [taken] at first
      have onward := ih first
      change match runDecimally after rest with
        | some last => _
        | none => _
      cases ended : runDecimally after rest with
      | none =>
        rw [ended] at onward
        exact fun along => onward along.2
      | some last =>
        rw [ended] at onward
        exact ⟨⟨first.holdable, onward.1⟩, onward.2⟩

end Steps

section Spellings
variable {α : Type} {bank : Bank α} {moves : List (Move α)}

def Fits (bank : Bank α) (move : Move α) : Prop := Holdable (after bank move)

/-- n kobo, as a column spells them -/
def spelled (n : Int) (positive : 0 < n) (short : n < 10 ^ 20) : Amount :=
  ⟨⟨n, -2⟩, n, counts_hundredths, positive, short⟩

theorem move_spelled {move : Move α} (here : Holdable bank) (legal : Legal bank move)
    (fits : Fits bank move) :
    ∃ step : Step α, step.move = move := by
  cases move with
  | deposit a n =>
    have own := (balance_raised bank a n).1
    have before := here a
    have left := fits a
    simp only [after, own] at left
    exact ⟨.credit a n (abs_lt.mpr (by omega)), rfl⟩
  | transfer a b n =>
    obtain ⟨apart, positive, covered⟩ := legal
    have before := here a
    exact ⟨.transfer a b apart (spelled n positive (by omega)), rfl⟩
  | pledge a n =>
    obtain ⟨positive, covered⟩ := legal
    have before := here a
    exact ⟨.hold a (spelled n positive (by omega)), rfl⟩
  | release a n =>
    have own := (balance_raised bank a n).1
    have before := here a
    have left := fits a
    simp only [after, own] at left
    exact ⟨.refund a (spelled n legal.1 (by omega)), rfl⟩
  | payOut a n => exact ⟨.payOut a n, rfl⟩

theorem moves_spelled (here : Holdable bank) (legal : GuardedRuns.Along after Legal bank moves)
    (fits : GuardedRuns.Along after Fits bank moves) :
    ∃ steps : List (Step α), steps.map Step.move = moves := by
  induction moves generalizing bank with
  | nil => exact ⟨[], rfl⟩
  | cons move rest ih =>
    obtain ⟨step, first⟩ := move_spelled here legal.1 fits.1
    obtain ⟨steps, later⟩ := ih fits.1 legal.2 fits.2
    exact ⟨step :: steps, by rw [List.map_cons, first, later]⟩

theorem steps_of_moves (bank : Bank α) (steps : List (Step α)) : GuardedRuns.run afterStep bank steps =
      GuardedRuns.run after bank (steps.map Step.move) ∧
    (GuardedRuns.Along after Fits bank (steps.map Step.move) →
      GuardedRuns.Along afterStep (fun s step => Holdable (afterStep s step)) bank steps) := by
  induction steps generalizing bank with
  | nil => exact ⟨rfl, fun along => along⟩
  | cons step rest ih =>
    obtain ⟨same, along⟩ := ih (afterStep bank step)
    exact ⟨same, fun fits => ⟨fits.1, along fits.2⟩⟩

end Spellings

section Platform
variable {ι : Type}

/-- The columns can hold what the wallets have. -/
def Roomy (db : Database) : Prop := ∀ w ∈ db.wallets.rows, w.balance < 10 ^ 20

instance (db : Database) : Decidable (Roomy db) := inferInstanceAs (Decidable (∀ w ∈ _, _))

def columns (db : Database) : Balances Uuid :=
  fun id => ⟨((db.wallets.find? id).map (·.balance)).getD 0, -2⟩

variable {db s : Database} {log : List (ι × List Write)} {moves : List (Move Uuid)}

theorem roomy_holdable (order : InOrder s) (roomy : Roomy s) : Holdable (bankOf s) := by
  intro id
  cases row : s.wallets.find? id with
  | none =>
    rw [bank_balance_absent row]
    omega
  | some w =>
    have mem := (find?_some_iff.mp row).1
    rw [bank_balance row]
    exact ⟨order.books.solvent w mem, roomy w mem⟩

theorem columns_show (order : InOrder db) (roomy : Roomy db) : Shows (columns db) (bankOf db) where
  counts id := by
    rw [balance_at]
    exact counts_hundredths
  holdable := roomy_holdable order roomy

variable {ws : List Write}

theorem roomy_still (roomy : Roomy s) (same : bankOf (applyAll ws s) = bankOf s) :
    Roomy (applyAll ws s) := by
  intro w mem
  have row : (applyAll ws s).wallets.find? w.id = some w := find?_some_iff.mpr ⟨mem, rfl⟩
  rw [← bank_balance row, same]
  cases before : s.wallets.find? w.id with
  | none =>
    rw [bank_balance_absent before]
    decide
  | some held =>
    rw [bank_balance before]
    exact roomy held (find?_some_iff.mp before).1

theorem roomy_set (roomy : Roomy s) {b : Int} (short : b < 10 ^ 20) (id : Uuid) :
    Roomy (applyWrite (.setBalance id b) s) := by
  intro w mem
  obtain ⟨old, there, rfl⟩ := mem_update mem
  unfold editAt
  split
  · exact short
  · exact roomy old there

theorem roomy_movement (roomy : Roomy s) (c : MovementCommit s ws) (proper : ProperCommit ws s) :
    Roomy (applyAll ws s) := by
  cases c with
  | posted t sender recipient type status source destination provider extra free payer payee apart
      covered creditable =>
    have positive := ((inserted_righted proper List.mem_cons_self).payer sender.id source).2
    have before := roomy sender (find?_some_iff.mp payer).1
    have paid : Roomy (applyWrite (.setBalance sender.id (sender.balance - t.amount)) s) :=
      roomy_set roomy (by omega) sender.id
    exact roomy_set paid creditable.2 recipient.id

theorem roomy_hold (roomy : Roomy s) (c : HoldCommit s ws) (proper : ProperCommit ws s) :
    Roomy (applyAll ws s) := by
  cases c with
  | held t wallet type status source destination provider free holder covered =>
    have positive := ((inserted_righted proper List.mem_cons_self).payer wallet.id source).2
    have before := roomy wallet (find?_some_iff.mp holder).1
    exact roomy_set roomy (by omega) wallet.id

/-- No commit gives a wallet what its column cannot hold. -/
theorem roomy_commit (roomy : Roomy s) (good : GoodCommit ws s) : Roomy (applyAll ws s) := by
  obtain ⟨commit, proper⟩ := good
  cases commit with
  | start id c => exact roomy_still roomy (start_still c)
  | home home => exact roomy_still roomy (homely_still home)
  | book c =>
    cases c with
    | request c => exact roomy_still roomy (request_still c)
    | registration c => exact roomy_still roomy (registration_still c)
    | start id a row funding c => exact roomy_still roomy (start_still c)
    | abandon id a row funding c => exact roomy_still roomy (abandon_still row funding c)
    | charge id a row funding c =>
      cases c with
      | credited t wallet amount found status destination holder creditable =>
        exact roomy_set roomy creditable.2 wallet.id
    | money c =>
      cases c with
      | movement c => exact roomy_movement roomy c proper
      | hold c => exact roomy_hold roomy c proper
      | side side => exact roomy_still roomy (side_still side)
    | payout c =>
      cases c with
      | dispatch id c => exact roomy_still roomy (dispatch_still c)
      | side side => exact roomy_still roomy (side_still side)
      | settle id c =>
        cases c with
        | paid t wallet row status source holder => exact roomy
        | refunded t wallet reason row status source holder creditable =>
          exact roomy_set roomy creditable.2 wallet.id

/-- The moves of a run fit, since no column takes a balance that it cannot hold. -/
theorem run_told [DecidableEq ι] {works : ι → Work} {T : Running ι} (order : InOrder db)
    (roomy : Roomy db) (fine : ∀ i, admitted (works i))
    (run : Run (Meets (fun _ => Fresh)) (platform db works) T) :
    ∃ moves, Told db T.log moves T.db ∧ GuardedRuns.Along after Fits (bankOf db) moves := by
  suffices told : Roomy T.db ∧ ∃ moves, Told db T.log moves T.db ∧
      GuardedRuns.Along after Fits (bankOf db) moves from told.2
  refine (platform_keeps order fine run (P := fun log s => Roomy s ∧ ∃ moves, Told db log moves s ∧
    GuardedRuns.Along after Fits (bankOf db) moves) ?_ ⟨roomy, [], .start, trivial⟩).2
  rintro i ws log s good here ⟨room, moves, told, fits⟩
  have next := roomy_commit room good
  obtain ⟨more, longer, one⟩ := told_commit i told here good
  have fit : GuardedRuns.Along after Fits (bankOf s) more := by
    rcases one with rfl | ⟨move, rfl, moved⟩
    · trivial
    · have held := roomy_holdable (inOrder_commit good here) next
      rw [moved] at held
      exact ⟨held, trivial⟩
  rw [(told_run told).1] at fit
  exact ⟨next, moves ++ more, longer, GuardedRuns.along_append.mpr ⟨fits, fit⟩⟩

/-- A run moves money as a bank does, and whatever Decimals spell the amounts, the services compute from
    the columns of the first state those of the last one. -/
theorem platform_in_decimals [DecidableEq ι] {works : ι → Work} {T : Running ι} (order : InOrder db)
    (roomy : Roomy db) (fine : ∀ i, admitted (works i))
    (run : Run (Meets (fun _ => Fresh)) (platform db works) T) :
    ∃ moves, Told db T.log moves T.db ∧ (∃ steps : List (Step Uuid), steps.map Step.move = moves) ∧
      ∀ steps : List (Step Uuid), steps.map Step.move = moves → ∃ balances,
        runDecimally (columns db) steps = some balances ∧ ∀ w ∈ T.db.wallets.rows, Counts
        (balances w.id) w.balance := by
  obtain ⟨moves, told, fits⟩ := run_told order roomy fine run
  obtain ⟨arrived, legal⟩ := told_run told
  refine ⟨moves, told, moves_spelled (roomy_holdable order roomy) legal fits, ?_⟩
  rintro steps rfl
  obtain ⟨same, along⟩ := steps_of_moves (bankOf db) steps
  have shown := run_shows steps (columns_show order roomy)
  cases ended : runDecimally (columns db) steps with
  | none =>
    rw [ended] at shown
    exact absurd (along fits) shown
  | some balances =>
    rw [ended, same, ← arrived] at shown
    refine ⟨balances, rfl, ?_⟩
    intro w mem
    rw [← bank_balance (find?_some_iff.mpr ⟨mem, rfl⟩)]
    exact shown.2.counts w.id

end Platform

section Day

theorem day_in_decimals : ∃ T : Running (Fin 7), T.db.wallets.rows.map (·.balance) = [25000, 10000] ∧
    ∃ moves, Told newDb T.log moves T.db ∧ (∃ steps : List (Step Uuid), steps.map Step.move = moves) ∧
      ∀ steps : List (Step Uuid), steps.map Step.move = moves → ∃ balances,
        runDecimally (columns newDb) steps = some balances ∧ ∀ w ∈ T.db.wallets.rows, Counts
        (balances w.id) w.balance := by
  obtain ⟨T, run, values⟩ := day_run
  exact ⟨T, congrArg Prod.fst values, platform_in_decimals ⟨new_books, new_sound⟩
    (by decide) works_admitted run⟩

end Day

end PayCoreDecimalBooks
