import PayCore.Service.Support

/- app/services/merchant.py -/
namespace PayCoreMerchants
open SessionProgram PayCoreTables PayCoreWrites PayCoreSessions PayCoreRepositories PayCoreSupport

structure MerchantDraws where
  merchantId : Uuid
  walletId : Uuid
  rawKey : String
  apiKeyHash : String
  webhookSecret : String

/-- `raw[:8]` -/
def apiKeyPrefix (rawKey : String) : String := String.ofList (rawKey.toList.take 8)

def ensureWallet (walletId userId : Uuid) : Tx Unit := do
  let wallet ← WalletRepository.getByUserId userId
  match wallet with
  | some _ => pure ()
  | none => do
    let _ ← WalletRepository.create walletId userId "NGN"
    pure ()

def createMerchant (user : User) (businessName : String) (draws : MerchantDraws) :
    Tx (Merchant × String) := do
  let existing ← MerchantRepository.getByUserId user.id
  require existing.isNone
    (.conflict "A merchant profile already exists for this account." "MERCHANT_ALREADY_EXISTS")
  let merchant ← MerchantRepository.create
    { id := draws.merchantId, userId := user.id, businessName, apiKeyHash := draws.apiKeyHash,
      apiKeyPrefix := apiKeyPrefix draws.rawKey, webhookSecret := some draws.webhookSecret }
  ensureWallet draws.walletId user.id
  flushAccount (if user.role = .merchant then [] else [.updateUser user.id { role := some .merchant }])
  commit
  auditLog { actorId := some user.id, actorType := .user, action := "merchant.created",
             targetType := some "merchant", targetId := some merchant.id }
  auditLog { actorId := some user.id, actorType := .user, action := "api_key.generated",
             targetType := some "merchant", targetId := some merchant.id }
  pure (merchant, draws.rawKey)

def getMerchantProfile (userId : Uuid) : Tx Merchant := do
  let merchant ← MerchantRepository.getByUserId userId
  orRaise merchant (.notFound "Merchant profile")

def rotateApiKey (userId : Uuid) (rawKey apiKeyHash : String) : Tx (Merchant × String) := do
  let merchant ← getMerchantProfile userId
  let merchant ← MerchantRepository.updateApiKey merchant apiKeyHash (apiKeyPrefix rawKey)
  commit
  auditLog { actorId := some merchant.userId, actorType := .user, action := "api_key.generated",
             targetType := some "merchant", targetId := some merchant.id }
  pure (merchant, rawKey)

/-- `newSecret` is drawn where the secret is to be regenerated. -/
def updateWebhookConfig (userId : Uuid) (webhookUrl newSecret : Option String) : Tx Merchant := do
  let merchant ← getMerchantProfile userId
  let merchant ← MerchantRepository.updateWebhook merchant webhookUrl newSecret
  commit
  pure merchant

end PayCoreMerchants
