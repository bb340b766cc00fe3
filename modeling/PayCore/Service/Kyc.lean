import PayCore.Service.Accounts

/- app/services/kyc.py, with the document checks of app/integrations/storage.py -/
namespace PayCoreKyc
open SessionProgram PayCoreTables PayCoreWrites PayCoreSessions PayCoreRepositories PayCoreSupport
open PayCoreAccounts

def magic : List (List UInt8 × String) :=
  [([0xff, 0xd8, 0xff], "image/jpeg"), ([0x89, 0x50, 0x4e, 0x47], "image/png"),
   ([0x25, 0x50, 0x44, 0x46], "application/pdf")]

def detectMimeType (data : List UInt8) : Option String :=
  (magic.find? (fun entry => data.take entry.1.length == entry.1)).map (·.2)

def maxFileSize : Nat := 5 * 1024 * 1024

def allowedMime : List String := ["image/jpeg", "image/png", "application/pdf"]

def uploadFile (fileBytes : List UInt8) (documentKey : String) : Tx Unit :=
  .call (.uploadFile fileBytes documentKey) (fun _ => .ret ())
    (.raise (.externalService "Document storage"))

/-- `documentKey` is the key under which the document is stored, drawn with the id. -/
def submitKyc (user : User) (targetTier : Nat) (fileBytes : List UInt8) (submissionId : Uuid)
    (documentKey : String) : Tx KYCSubmission := do
  require (fileBytes.length ≤ maxFileSize)
    (.validation "Document must not exceed 5 MB." "FILE_TOO_LARGE")
  require ((detectMimeType fileBytes).any (allowedMime.contains ·))
    (.validation "Unsupported file type. Allowed formats: JPEG, PNG, PDF." "INVALID_FILE_TYPE")
  -- The schema asks for a target tier of 1 or 2.
  require (user.kycTier + 1 = targetTier)
    (.validation ("You must complete Tier " ++ toString (targetTier - 1) ++ " before applying for Tier " ++
      toString targetTier ++ ".") "KYC_TIER_SKIP")
  let existing ← KYCRepository.getActiveForTier user.id targetTier
  match existing with
  | some active =>
    if active.status = .pending then
      .raise (.conflict "A KYC submission for this tier is already under review." "KYC_SUBMISSION_PENDING")
    else
      .raise (.conflict ("KYC Tier " ++ toString targetTier ++
        " has already been approved for this account.") "KYC_ALREADY_APPROVED")
  | none => do
    uploadFile fileBytes documentKey
    let submission ← KYCRepository.create
      { id := submissionId, userId := user.id, requestedTier := targetTier, documentKey }
    commit
    auditLog { actorId := some user.id, actorType := .user, action := "kyc.submitted",
               targetType := some "kyc_submission", targetId := some submission.id }
    pure submission

def getSubmission (submissionId : Uuid) : Tx KYCSubmission := do
  let submission ← KYCRepository.getById submissionId
  orRaise submission (.notFound "KYC submission")

def statusValue : KYCStatus → String
  | .pending => "pending"
  | .approved => "approved"
  | .rejected => "rejected"

def approveKyc (submissionId : Uuid) (reviewer : User) (utcNow : Timestamp) : Tx KYCSubmission := do
  let sub ← getSubmission submissionId
  require (sub.status ≠ .approved)
    (.conflict "This submission has already been approved." "KYC_ALREADY_APPROVED")
  require (sub.status ≠ .rejected)
    (.conflict "Cannot approve a rejected submission." "KYC_ALREADY_REJECTED")
  require (reviewer.id ≠ sub.userId) (.forbidden "Admins cannot review their own KYC submissions.")
  let sub ← KYCRepository.review sub
    { status := .approved, reviewerId := reviewer.id, reviewedAt := utcNow }
  let _ ← updateKycTier sub.userId sub.requestedTier
  commit
  auditLog { actorId := some reviewer.id, actorType := .admin, action := "kyc.approved",
             targetType := some "kyc_submission", targetId := some sub.id }
  pure sub

def rejectKyc (submissionId : Uuid) (reviewer : User) (reason : String) (utcNow : Timestamp) :
    Tx KYCSubmission := do
  let sub ← getSubmission submissionId
  require (sub.status = .pending)
    (.conflict ("Cannot reject a submission with status '" ++ statusValue sub.status ++ "'.")
      "KYC_INVALID_STATUS_FOR_REJECTION")
  require (reviewer.id ≠ sub.userId) (.forbidden "Admins cannot review their own KYC submissions.")
  let sub ← KYCRepository.review sub
    { status := .rejected, reviewerId := reviewer.id, rejectionReason := some reason, reviewedAt := utcNow }
  commit
  auditLog { actorId := some reviewer.id, actorType := .admin, action := "kyc.rejected",
             targetType := some "kyc_submission", targetId := some sub.id }
  pure sub

end PayCoreKyc
