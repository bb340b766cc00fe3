import PayCore.Library.DecimalArithmetic
import PayCore.Model.Tables

/- The amounts as the services compute them, in the Decimal of Python and the NUMERIC of
PostgreSQL, where the other modules count kobo. -/
namespace PayCoreDecimalAmounts
open DecimalArithmetic

/-- The precision of the context that nobody changes. -/
def precision : Nat := 28

def ofInt (n : Int) : Decimal := ⟨n, 0⟩

/-- A column of type NUMERIC(20, 2): what is stored has two places, rounded half away from zero,
and at most eighteen digits before the point. -/
def stored (d : Decimal) : Option Decimal :=
  let hundredths :=
    if -2 ≤ d.exponent then scaled d (-2)
    else
      let unit := 10 ^ (-2 - d.exponent).toNat
      d.coefficient.sign * ((2 * d.coefficient.natAbs + unit) / (2 * unit) : Nat)
  if hundredths.natAbs < 10 ^ 20 then some ⟨hundredths, -2⟩ else none

/-- `int(amount * 100)`, of initiate_funding and execute_payout. -/
def amountKobo (amount : Decimal) : Int := toInt (mul precision amount (ofInt 100))

/-- `Decimal(str(amount_kobo)) / 100`, of process_charge_success. -/
def chargeAmount (amountKobo : Int) : Option Decimal := div precision (ofInt amountKobo) (ofInt 100)

def minimumFundingNgn : Decimal := ⟨10000, -2⟩

def belowMinimum (amount : Decimal) : Bool := less amount minimumFundingNgn

def overLimit (limit : Nat) (amount : Decimal) : Bool := less (ofInt limit) amount

def overDailyLimit (dailyLimit : Nat) (dailySum amount : Decimal) : Bool :=
  overLimit dailyLimit (add precision dailySum amount)

abbrev Balances (α : Type) := α → Decimal

section Steps
variable {α : Type} [DecidableEq α]

def put (balances : Balances α) (a : α) (balance : Decimal) : Balances α :=
  Function.update balances a balance

def updateBalance (balances : Balances α) (a : α) (newBalance : Decimal) : Option (Balances α) := do
  let balance ← stored newBalance
  if less balance (ofInt 0) then none else some (put balances a balance)

def credit (balances : Balances α) (a : α) (amountKobo : Int) : Option (Balances α) := do
  let amount ← chargeAmount amountKobo
  updateBalance balances a (add precision (balances a) amount)

/-- initiate_transfer and initiate_payment: both balances are read under their locks before
either is set. -/
def transfer (balances : Balances α) (sender recipient : α) (amount : Decimal) : Option (Balances α) :=
  if less (balances sender) amount then none
  else do
    let senderBalanceAfter := sub precision (balances sender) amount
    let recipientBalanceAfter := add precision (balances recipient) amount
    let balances ← updateBalance balances sender senderBalanceAfter
    updateBalance balances recipient recipientBalanceAfter

def hold (balances : Balances α) (a : α) (amount : Decimal) : Option (Balances α) :=
  if less (balances a) amount then none
  else updateBalance balances a (sub precision (balances a) amount)

def refund (balances : Balances α) (a : α) (amount : Decimal) : Option (Balances α) :=
  updateBalance balances a (add precision (balances a) amount)

end Steps

end PayCoreDecimalAmounts
