import PayCore.Library.HexText
import PayCore.Library.JsonText
import PayCore.Model.Sessions

/- app/api/v1/webhooks.py, and the signature check of app/services/paystack_webhook.py. -/
namespace PayCoreReceiver
open TextCodecs JsonText HexText
open PayCoreSessions (AppError)

/-- Header names are in lower case, as the server hands them on. -/
structure Request where
  headers : List (String × List UInt8)
  body : List UInt8

/-- `request.headers.get(name, "")`: the bytes of the first header with the name, as Latin-1 -/
def Request.header (request : Request) (name : String) : Text :=
  ((request.headers.find? (·.1 == name)).map fun header => header.2.map UInt8.toNat).getD []

/-- The setting, the digest as a function of key and message, the limits of the interpreter, and what
   handing a task with these arguments to the broker raises. -/
structure Environment where
  paystackWebhookSecret : String
  hmacSha512 : List UInt8 → List UInt8 → List UInt8
  limits : Limits
  delayRaises : Value → Value → Option String

inductive Raised where
  | app (error : AppError)
  | typeError
  | attributeError
  | loads (failure : Failure)
  | delay (text : String)

/-- The calls of `process_paystack_webhook.delay` are kept whatever is raised after them. -/
abbrev Handler := ExceptT Raised (StateM (List (Value × Value)))

def hexdigest (digest : List UInt8) : Text := digest.flatMap fun b => (hexText 2 b.toNat).map code

def compareDigest (a b : Text) : Handler Bool :=
  if (a ++ b).all (· < 0x80) then pure (a == b) else throw .typeError

def expectedSignature (env : Environment) (rawBody : List UInt8) : Text :=
  hexdigest (env.hmacSha512 env.paystackWebhookSecret.toUTF8.data.toList rawBody)

def verifySignature (env : Environment) (rawBody : List UInt8) (signature : Text) : Handler Bool :=
  if env.paystackWebhookSecret = "" then pure false
  else compareDigest (expectedSignature env rawBody) signature

def get (value : Value) (key : String) (default : Value) : Handler Value :=
  match value with
  | .dict entries => pure ((entries.lookup (codes key)).getD default)
  | _ => throw .attributeError

def delay (env : Environment) (eventType data : Value) : Handler Unit := do
  modify (· ++ [(eventType, data)])
  match env.delayRaises eventType data with
  | some text => throw (.delay text)
  | none => pure ()

def parseBody (env : Environment) (rawBody : List UInt8) : Handler Value :=
  match loads env.limits rawBody with
  | .ok eventData => pure eventData
  | .error .jsonDecodeError | .error .unicodeDecodeError =>
    throw (.app (.validation "Malformed JSON body." "INVALID_JSON"))
  | .error failure => throw (.loads failure)

def receivePaystackWebhook (env : Environment) (request : Request) : Handler String := do
  let rawBody := request.body
  let signature := request.header "x-paystack-signature"
  let verified ← verifySignature env rawBody signature
  if !verified then throw (.app (.unauthorized "Invalid or missing webhook signature.")) else do
  let eventData ← parseBody env rawBody
  let eventType ← get eventData "event" (.str [])
  let data ← get eventData "data" (.dict [])
  tryCatch (delay env eventType data) fun _ => pure ()
  pure "Webhook accepted."

/-- The status codes of app/core/exceptions.py. What is not an AppError there gets the one of
   `unhandled_error_handler` in app/main.py. -/
def errorStatus : AppError → Nat
  | .unauthorized _ => 401
  | .notFound _ => 404
  | .conflict _ _ => 409
  | .forbidden _ | .kycTier _ => 403
  | .validation _ _ | .insufficientBalance | .dailyLimit => 422
  | .duplicateTransfer => 429
  | .externalService _ => 503
  | .integrity _ | .multipleResultsFound | .database | .broker | .responseModel => 500

def statusCode : Except Raised String → Nat
  | .ok _ => 200
  | .error (.app error) => errorStatus error
  | .error _ => 500

def answer (env : Environment) (request : Request) : Nat × List (Value × Value) :=
  let (result, attempts) := (receivePaystackWebhook env request).run.run []
  (statusCode result, attempts)

end PayCoreReceiver
