import PayCore.Service.Operations

/- The endpoints of app/api/v1 that change state, with what they ask of the caller. -/
namespace PayCoreEndpoints
open SessionProgram PayCoreTables PayCoreSessions PayCoreSupport PayCoreAccounts PayCoreJobs
open PayCoreOperations

/-- `require_role` of app/core/deps.py -/
def requireRole (roles : List UserRole) (currentUserId : Uuid) : Tx User := do
  let currentUser ← getCurrentUser currentUserId
  require (roles.contains currentUser.role) (.forbidden "Insufficient permissions.")
  pure currentUser

inductive Endpoint where
  | request (op : Operation)
  | approveKyc (currentUserId submissionId : Uuid) (utcNow : Timestamp)
  | rejectKyc (currentUserId submissionId : Uuid) (reason : String) (utcNow : Timestamp)
  | runReconciliation (currentUserId : Uuid)

def runReconciliation (admin : User) : Tx Unit := do
  enqueue .checkStaleTransactions
  auditLog { actorId := some admin.id, actorType := .admin, action := "admin.reconciliation_triggered",
             targetType := none, targetId := none }

def Endpoint.program : Endpoint → Tx Unit
  | .request op => op.program
  | .approveKyc currentUserId submissionId utcNow => do
    let admin ← requireRole [.admin] currentUserId
    quietly (PayCoreKyc.approveKyc submissionId admin utcNow)
  | .rejectKyc currentUserId submissionId reason utcNow => do
    let admin ← requireRole [.admin] currentUserId
    quietly (PayCoreKyc.rejectKyc submissionId admin reason utcNow)
  | .runReconciliation currentUserId => do
    let admin ← requireRole [.admin] currentUserId
    PayCoreEndpoints.runReconciliation admin

end PayCoreEndpoints
