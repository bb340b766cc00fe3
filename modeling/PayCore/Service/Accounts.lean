import PayCore.Service.Registration

/- app/core/deps.py, app/services/auth.py and app/services/user.py -/
namespace PayCoreAccounts
open SessionProgram PayCoreTables PayCoreWrites PayCoreSessions PayCoreRepositories PayCoreSupport
open PayCoreRegistration

/-- `get_current_user`, once the access token has named the user. -/
def getCurrentUser (userId : Uuid) : Tx User := do
  let user ← UserRepository.getById userId
  let user ← orRaise user (.unauthorized "User not found.")
  require user.isActive (.forbidden "Account is deactivated.")
  pure user

structure TokenDraws where
  accessToken : String
  rawRefresh : String
  refreshHash : String
  utcNow : Timestamp

structure TokenResponse where
  accessToken : String
  refreshToken : String
  tokenType : String
  expiresIn : Nat

def tokenResponse (cfg : Settings) (draws : TokenDraws) : TokenResponse where
  accessToken := draws.accessToken
  refreshToken := draws.rawRefresh
  tokenType := "bearer"
  expiresIn := cfg.accessTokenExpireMinutes * 60

/-- `verifyPassword` is bcrypt's checkpw. -/
def login (cfg : Settings) (normalize : String → String) (verifyPassword : String → String → Bool)
    (email password : String) (draws : TokenDraws) : Tx TokenResponse := do
  let user ← UserRepository.getByEmail normalize email
  let user ← orRaise user (.unauthorized "Invalid credentials.")
  require (verifyPassword password user.hashedPassword) (.unauthorized "Invalid credentials.")
  require user.isActive (.forbidden "Account is deactivated. Please contact support.")
  storeRefreshToken cfg user.id draws.refreshHash draws.utcNow
  commit
  auditLog { actorId := some user.id, actorType := .user, action := "user.login",
             targetType := some "user", targetId := some user.id }
  pure (tokenResponse cfg draws)

def refresh (cfg : Settings) (tokenHash : String) (draws : TokenDraws) : Tx TokenResponse := do
  let token ← RefreshTokenRepository.getByHash tokenHash
  let token ← orRaise (token.filter (fun t => !t.isRevoked))
    (.unauthorized "Invalid or expired refresh token.")
  require (draws.utcNow ≤ token.expiresAt) (.unauthorized "Refresh token has expired.")
  let user ← UserRepository.getById token.userId
  let user ← orRaise (user.filter (·.isActive)) (.unauthorized "Invalid or expired refresh token.")
  RefreshTokenRepository.revoke token
  storeRefreshToken cfg user.id draws.refreshHash draws.utcNow
  commit
  pure (tokenResponse cfg draws)

def logout (tokenHash : String) : Tx Unit := do
  let token ← RefreshTokenRepository.getByHash tokenHash
  match token.filter (fun t => !t.isRevoked) with
  | none => pure ()
  | some token => do
    RefreshTokenRepository.revoke token
    commit

/-- Nobody commits here: neither the service, nor the router, nor get_db. -/
def updateProfile (userId : Uuid) (fullName phone : Option String) : Tx User := do
  let user ← UserRepository.getById userId
  let user ← orRaise user (.notFound "User")
  match phone with
  | none => UserRepository.updateProfile user fullName phone
  | some number =>
    if phone = user.phone then UserRepository.updateProfile user fullName phone
    else do
      let existing ← UserRepository.getByPhone number
      require (existing.all (·.id == userId))
        (.conflict "This phone number is already registered." "PHONE_CONFLICT")
      UserRepository.updateProfile user fullName phone

def updateKycTier (userId : Uuid) (tier : Nat) : Tx User := do
  let user ← UserRepository.getById userId
  let user ← orRaise user (.notFound "User")
  UserRepository.updateKycTier user tier

end PayCoreAccounts
