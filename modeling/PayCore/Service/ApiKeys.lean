import PayCore.Library.HexText
import PayCore.Library.SessionSystem
import PayCore.Service.Merchants

/- The API keys of merchants: `generate_api_key` of app/core/security.py, and `MerchantAuthService`
   of app/services/merchant.py. What bcrypt.checkpw answers is a parameter. -/
namespace PayCoreApiKeys
open HexText KeyedTable SessionProgram SessionSystem PayCoreTables PayCoreWrites PayCoreSessions
open PayCoreRepositories PayCoreMerchants

/-- `f"pk_live_{uuid.uuid4().hex}"` -/
def rawApiKey (id : Uuid) : String := String.ofList ("pk_live_".toList ++ hexText 32 id)

/-- `get_active_by_prefix`; the database returns these rows in some order. -/
def getActiveByPrefix (keyPrefix : String) (db : Database) : List Merchant :=
  db.merchants.rows.filter fun m => m.apiKeyPrefix == keyPrefix && m.isActive && m.deletedAt.isNone

def authenticate (arrange : List Merchant → List Merchant) (verifyApiKey : String → String → Bool)
    (rawKey : String) : Tx Merchant := do
  let candidates ← query fun db => arrange (getActiveByPrefix (apiKeyPrefix rawKey) db)
  orRaise (candidates.find? fun candidate => verifyApiKey rawKey candidate.apiKeyHash)
    (.unauthorized "Invalid API key.")

inductive KeyRequest where
  | createMerchant (user : User) (businessName : String)
  | rotateApiKey (userId : Uuid)

structure KeyDraws where
  merchantId : Uuid
  walletId : Uuid
  keyId : Uuid
  apiKeyHash : String
  webhookSecret : String

def KeyDraws.rawKey (draws : KeyDraws) : String := rawApiKey draws.keyId

def KeyRequest.program (draws : KeyDraws) : KeyRequest → Tx (Merchant × String)
  | .createMerchant user businessName =>
    PayCoreMerchants.createMerchant user businessName
      { merchantId := draws.merchantId, walletId := draws.walletId, rawKey := draws.rawKey,
        apiKeyHash := draws.apiKeyHash, webhookSecret := draws.webhookSecret }
  | .rotateApiKey userId => PayCoreMerchants.rotateApiKey userId draws.rawKey draws.apiKeyHash

/-- No service sets these columns: `is_active` is changed by hand, `deleted_at` also by `soft_delete`
   of app/repositories/merchant.py. -/
def moderation (isActive : Bool) (deletedAt : Option Timestamp) : Edit Merchant where
  on m := { m with isActive, deletedAt }
  keeps_key _ := rfl
  keeps_clash _ _ := rfl

def moderate (id : Uuid) (isActive : Bool) (deletedAt : Option Timestamp) (db : Database) : Database :=
  { db with merchants := db.merchants.update id (moderation isActive deletedAt) }

abbrev KeySystem (ι : Type) := System ι Database IdentityMap Write Row Request PaystackData AppError
    (Merchant × String)

inductive KeyRun {ι : Type} [DecidableEq ι] (db : Database) (progs : ι → Tx (Merchant × String)) :
    KeySystem ι → Prop where
  | start : KeyRun db progs (initial db progs)
  | step {S T : KeySystem ι} {a : Action ι PaystackData} (before : KeyRun db progs S)
      (moves : step S a = some T) :
      KeyRun db progs T
  | moderated {S : KeySystem ι} (before : KeyRun db progs S) (id : Uuid) (isActive : Bool)
      (deletedAt : Option Timestamp) : KeyRun db progs { S with db := moderate id isActive deletedAt S.db }

end PayCoreApiKeys
