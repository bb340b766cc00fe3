import PayCore.Service.Support

/- app/services/auth.py (register) and app/services/wallet.py (create_wallet) -/
namespace PayCoreRegistration
open SessionProgram PayCoreTables PayCoreWrites PayCoreSessions PayCoreRepositories PayCoreSupport

structure RegistrationDraws where
  userId : Uuid
  walletId : Uuid
  refreshHash : String
  utcNow : Timestamp

def createWallet (walletId userId : Uuid) : Tx Wallet := do
  let existing ← WalletRepository.getByUserId userId
  require existing.isNone
    (.conflict "A wallet already exists for this user." "WALLET_ALREADY_EXISTS")
  WalletRepository.create walletId userId "NGN"

def storeRefreshToken (cfg : Settings) (userId : Uuid) (refreshHash : String)
    (utcNow : Timestamp) : Tx Unit :=
  let token : RefreshToken :=
    { userId, tokenHash := refreshHash,
      expiresAt := utcNow + seconds (cfg.refreshTokenExpireDays * 86400) }
  .stmt []
    (fun db _ => if db.refreshTokens.admits token then [.insertRefreshToken token] else [])
    (fun _ m => m)
    (fun db _ => if db.refreshTokens.admits token then .ret ()
      else .raise (.integrity .refreshTokensHash))
    (.raise .database)

def register (cfg : Settings) (normalize : String → String) (email hashedPassword fullName : String)
    (phone : Option String) (draws : RegistrationDraws) : Tx User := do
  let existing ← UserRepository.getByEmail normalize email
  require existing.isNone
    (.conflict "An account with this email already exists." "EMAIL_CONFLICT")
  let user ← UserRepository.create normalize draws.userId email hashedPassword fullName phone
  let _ ← createWallet draws.walletId user.id
  storeRefreshToken cfg user.id draws.refreshHash draws.utcNow
  commit
  auditLog { actorId := some user.id, actorType := .user, action := "user.registered",
             targetType := some "user", targetId := some user.id }
  pure user

end PayCoreRegistration
