import PayCore.Library.TextCodecs

/- `json.loads` of Python on bytes. Floats keep their literal; the messages and positions of the
   errors are left out, their classes are not. -/
namespace JsonText
open TextCodecs

inductive Value where
  | null
  | bool (b : Bool)
  | int (n : Int)
  | float (literal : Text)
  | str (text : Text)
  | list (items : List Value)
  | dict (entries : List (Text × Value))
  deriving Repr

/-- What loads raises. `exhausted` is a loop of the model that ran out of rounds. -/
inductive Failure where
  | jsonDecodeError | unicodeDecodeError | recursionError | valueError | exhausted
  deriving DecidableEq, Repr

/-- The interpreter's limits: containers within each other, and digits of an integer (0 for none). -/
structure Limits where
  nesting : Nat
  intDigits : Nat

def code (c : Char) : Nat := c.toNat

def codes (s : String) : Text := s.toList.map code

def isBlank (c : Nat) : Bool := c = code ' ' || c = code '\t' || c = code '\n' || c = code '\r'

def isDigit (c : Nat) : Bool := code '0' ≤ c && c ≤ code '9'

def skipBlanks (text : Text) : Text := text.dropWhile isBlank

def hexDigit (c : Nat) : Option Nat :=
  if isDigit c then some (c - code '0')
  else if code 'a' ≤ c && c ≤ code 'f' then some (c - code 'a' + 10)
  else if code 'A' ≤ c && c ≤ code 'F' then some (c - code 'A' + 10)
  else none

def hexUnit (digits : List Nat) : Option Nat :=
  digits.foldl (fun unit c => unit.bind fun unit => (hexDigit c).map (unit * 16 + ·)) (some 0)

def escape (c : Nat) : Option Nat :=
  if c = code '"' || c = code '\\' || c = code '/' then some c
  else if c = code 'b' then some 0x08
  else if c = code 'f' then some 0x0C
  else if c = code 'n' then some 0x0A
  else if c = code 'r' then some 0x0D
  else if c = code 't' then some 0x09
  else none

/-- A scanner returns what it has read and the text after it. This one reads from behind the
opening quote to behind the closing one. Only what came as an escape with four digits may be
half of a surrogate pair. -/
def units : Text → Except Failure (List (Bool × Nat) × Text)
  | [] => .error .jsonDecodeError
  | c :: rest =>
    if c = code '"' then pure ([], rest)
    else if c = code '\\' then
      match rest with
      | [] => .error .jsonDecodeError
      | e :: rest =>
        if e = code 'u' then
          match rest with
          | d₁ :: d₂ :: d₃ :: d₄ :: rest =>
            match hexUnit [d₁, d₂, d₃, d₄] with
            | some unit => do
              let (later, rest) ← units rest
              pure ((true, unit) :: later, rest)
            | none => .error .jsonDecodeError
          | _ => .error .jsonDecodeError
        else
          match escape e with
          | some c => do
            let (later, rest) ← units rest
            pure ((false, c) :: later, rest)
          | none => .error .jsonDecodeError
    else if c < 0x20 then .error .jsonDecodeError
    else do
      let (later, rest) ← units rest
      pure ((false, c) :: later, rest)

def scanString (text : Text) : Except Failure (Text × Text) := do
  let (scanned, rest) ← units text
  pure (pairUp scanned, rest)

/-- No digit may stand behind a leading zero: the zero is the number then. -/
def integerPart : Text → Option (Text × Text)
  | [] => none
  | c :: rest =>
    if c = code '0' then some ([c], rest)
    else if isDigit c then some (c :: rest.takeWhile isDigit, rest.dropWhile isDigit)
    else none

def fraction : Text → Text × Text
  | point :: d :: rest =>
    if point = code '.' && isDigit d then
      (point :: d :: rest.takeWhile isDigit, rest.dropWhile isDigit)
    else ([], point :: d :: rest)
  | text => ([], text)

def exponentSign : Text → Text × Text
  | c :: rest => if c = code '+' || c = code '-' then ([c], rest) else ([], c :: rest)
  | [] => ([], [])

def exponent : Text → Text × Text
  | e :: rest =>
    let (sign, behind) := exponentSign rest
    let digits := behind.takeWhile isDigit
    if (e = code 'e' || e = code 'E') && !digits.isEmpty then
      (e :: sign ++ digits, behind.dropWhile isDigit)
    else ([], e :: rest)
  | [] => ([], [])

def natOf (digits : Text) : Nat := digits.foldl (fun n d => n * 10 + (d - code '0')) 0

def numberSign : Text → Text × Text
  | c :: rest => if c = code '-' then ([c], rest) else ([], c :: rest)
  | [] => ([], [])

def scanNumber (limits : Limits) (text : Text) : Except Failure (Value × Text) :=
  let (sign, unsigned) := numberSign text
  match integerPart unsigned with
  | none => .error .jsonDecodeError
  | some (digits, rest) =>
    let (decimals, rest) := fraction rest
    let (power, rest) := exponent rest
    if decimals.isEmpty && power.isEmpty then
      if limits.intDigits ≠ 0 ∧ limits.intDigits < digits.length then .error .valueError
      else .ok (.int (if sign.isEmpty then (natOf digits : Int) else -(natOf digits : Int)), rest)
    else .ok (.float (sign ++ digits ++ decimals ++ power), rest)

def constants : List (Text × Value) :=
  [(codes "null", .null), (codes "true", .bool true), (codes "false", .bool false),
    (codes "NaN", .float (codes "NaN")), (codes "Infinity", .float (codes "Infinity")),
    (codes "-Infinity", .float (codes "-Infinity"))]

def scanConstant (text : Text) : Option (Value × Text) :=
  constants.findSome? fun (name, value) => (text.dropPrefix? name).map fun rest => (value, rest)

def expect (c : Nat) (text : Text) : Except Failure Text :=
  match skipBlanks text with
  | [] => .error .jsonDecodeError
  | d :: rest => if d = c then .ok rest else .error .jsonDecodeError

def separated {α : Type} (piece : Text → Except Failure (α × Text)) (close : Nat) : Nat → Text →
    Except Failure (List α × Text)
  | 0, _ => .error .exhausted
  | rounds + 1, text => do
    let (item, rest) ← piece text
    match expect close rest with
    | .ok rest => pure ([item], rest)
    | .error _ => do
      let rest ← expect (code ',') rest
      let (items, rest) ← separated piece close rounds (skipBlanks rest)
      pure (item :: items, rest)

def enclosed {α : Type} (piece : Text → Except Failure (α × Text)) (close : Nat) (text : Text) :
    Except Failure (List α × Text) :=
  match expect close text with
  | .ok rest => pure ([], rest)
  | .error _ => separated piece close (text.length + 1) (skipBlanks text)

def member (value : Text → Except Failure (Value × Text)) (text : Text) :
    Except Failure ((Text × Value) × Text) := do
  match text with
  | [] => .error .jsonDecodeError
  | c :: rest =>
    if c ≠ code '"' then .error .jsonDecodeError else do
    let (key, rest) ← scanString rest
    let rest ← expect (code ':') rest
    let (v, rest) ← value (skipBlanks rest)
    pure ((key, v), rest)

def setItem (entries : List (Text × Value)) (entry : Text × Value) : List (Text × Value) :=
  if entries.any (·.1 == entry.1) then entries.map fun e => if e.1 == entry.1 then entry else e
  else entries ++ [entry]

/-- One value. `nested` reads those inside a container, and is none at the last level there is. -/
def scanWith (limits : Limits) (nested : Option (Text → Except Failure (Value × Text))) :
    Text → Except Failure (Value × Text)
  | [] => .error .jsonDecodeError
  | c :: rest =>
    if c = code '"' then do
      let (text, rest) ← scanString rest
      pure (.str text, rest)
    else if c = code '{' then
      match nested with
      | none => .error .recursionError
      | some value => do
        let (entries, rest) ← enclosed (member value) (code '}') rest
        pure (.dict (entries.foldl setItem []), rest)
    else if c = code '[' then
      match nested with
      | none => .error .recursionError
      | some value => do
        let (items, rest) ← enclosed value (code ']') rest
        pure (.list items, rest)
    else
      match scanConstant (c :: rest) with
      | some scanned => pure scanned
      | none => scanNumber limits (c :: rest)

def scanOnce (limits : Limits) : Nat → Text → Except Failure (Value × Text)
  | 0 => scanWith limits none
  | depth + 1 => scanWith limits (some (scanOnce limits depth))

def decodeText (limits : Limits) (text : Text) : Except Failure Value := do
  let (value, rest) ← scanOnce limits limits.nesting (skipBlanks text)
  if (skipBlanks rest).isEmpty then pure value else .error .jsonDecodeError

def detectEncoding (bytes : List Nat) : Encoding :=
  if bomUtf32be.isPrefixOf bytes || bomUtf32le.isPrefixOf bytes then .utf32
  else if bomUtf16be.isPrefixOf bytes || bomUtf16le.isPrefixOf bytes then .utf16
  else if bomUtf8.isPrefixOf bytes then .utf8Sig
  else
    match bytes with
    | a :: b :: c :: d :: _ =>
      if a = 0 then if b ≠ 0 then .utf16be else .utf32be
      else if b = 0 then if c ≠ 0 || d ≠ 0 then .utf16le else .utf32le
      else .utf8
    | [a, b] => if a = 0 then .utf16be else if b = 0 then .utf16le else .utf8
    | _ => .utf8

def loads (limits : Limits) (bytes : List UInt8) : Except Failure Value :=
  let values := bytes.map UInt8.toNat
  match decode values (detectEncoding values) with
  | none => .error .unicodeDecodeError
  | some text => decodeText limits text

/- What a scanner leaves is shorter than what it was given, so that the rounds of a loop suffice. -/
section Rounds

variable {α β : Type}

def Consumes (bound : Nat) : Except Failure (α × Text) → Prop
  | .ok (_, rest) => rest.length < bound
  | .error e => e ≠ .exhausted

theorem consumes_mono {bound bound' : Nat} {scan : Except Failure (α × Text)}
    (consumes : Consumes bound scan) (le : bound ≤ bound') : Consumes bound' scan := by
  match scan, consumes with
  | .ok (_, rest), shorter => exact Nat.lt_of_lt_of_le shorter le
  | .error e, other => exact other

theorem consumes_bind {bound : Nat} {scan : Except Failure (α × Text)}
    {f : α × Text → Except Failure (β × Text)} (consumes : Consumes bound scan)
    (rest : ∀ a text, text.length < bound → Consumes bound (f (a, text))) :
    Consumes bound (scan >>= f) := by
  match scan, consumes with
  | .ok (a, text), shorter => exact rest a text shorter
  | .error e, other => exact other

theorem consumes_decodeError (bound : Nat) : Consumes (α := α) bound (.error .jsonDecodeError) := by
  simp [Consumes]

theorem length_skipBlanks (text : Text) : (skipBlanks text).length ≤ text.length :=
  (List.dropWhile_suffix isBlank).length_le

theorem length_afterDigits (text : Text) : (text.dropWhile isDigit).length ≤ text.length :=
  (List.dropWhile_suffix isDigit).length_le

theorem consumes_units (text : Text) : Consumes text.length (units text) := by
  fun_induction units text with
  | case2 rest => exact Nat.lt_succ_self _
  | case4 _ d₁ d₂ d₃ d₄ rest unit _ ih =>
    apply consumes_bind (consumes_mono ih _)
    · exact fun _ _ shorter => shorter
    · simp only [List.length_cons]
      omega
  | case7 _ e rest _ char _ ih =>
    apply consumes_bind (consumes_mono ih _)
    · exact fun _ _ shorter => shorter
    · simp only [List.length_cons]
      omega
  | case10 c rest _ _ _ ih =>
    exact consumes_bind (consumes_mono ih (Nat.le_succ _)) fun _ _ shorter => shorter
  | _ => exact consumes_decodeError _

theorem consumes_scanString (text : Text) : Consumes text.length (scanString text) :=
  consumes_bind (consumes_units text) fun _ _ shorter => shorter

theorem length_integerPart {text digits rest : Text} (scanned : integerPart text = some (digits, rest)) :
    rest.length < text.length := by
  cases text with
  | nil => simp [integerPart] at scanned
  | cons c text =>
    have within := length_afterDigits text
    simp only [integerPart] at scanned
    split at scanned
    · cases scanned
      exact Nat.lt_succ_self _
    · split at scanned
      · cases scanned
        exact Nat.lt_succ_of_le within
      · cases scanned

theorem length_fraction (text : Text) : (fraction text).2.length ≤ text.length := by
  fun_cases fraction text with
  | case1 point d rest _ =>
    have within := length_afterDigits rest
    simp only [List.length_cons]
    omega
  | case2 => exact Nat.le_refl _
  | case3 => exact Nat.le_refl _

theorem length_exponentSign (text : Text) : (exponentSign text).2.length ≤ text.length := by
  fun_cases exponentSign text with
  | case1 c rest _ => exact Nat.le_succ _
  | case2 => exact Nat.le_refl _
  | case3 => exact Nat.le_refl _

theorem length_exponent (text : Text) : (exponent text).2.length ≤ text.length := by
  cases text with
  | nil => exact Nat.le_refl _
  | cons e rest =>
    have behind := length_exponentSign rest
    have within := length_afterDigits (exponentSign rest).2
    simp only [exponent]
    split
    · simp only [List.length_cons]
      omega
    · exact Nat.le_refl _

theorem length_numberSign (text : Text) : (numberSign text).2.length ≤ text.length := by
  fun_cases numberSign text with
  | case1 rest => exact Nat.le_succ _
  | case2 => exact Nat.le_refl _
  | case3 => exact Nat.le_refl _

theorem consumes_scanNumber (limits : Limits) (text : Text) :
    Consumes text.length (scanNumber limits text) := by
  have signed := length_numberSign text
  simp only [scanNumber]
  cases scanned : integerPart (numberSign text).2 with
  | none => exact consumes_decodeError _
  | some pieces =>
    obtain ⟨digits, rest⟩ := pieces
    have whole := length_integerPart scanned
    have point := length_fraction rest
    have power := length_exponent (fraction rest).2
    have left : (exponent (fraction rest).2).2.length < text.length := by omega
    dsimp only
    split
    · split
      · simp [Consumes]
      · exact left
    · exact left

theorem length_dropPrefix {name text rest : Text} (dropped : text.dropPrefix? name = some rest) :
    name.length + rest.length = text.length := by
  obtain ⟨start, rfl, same⟩ := List.dropPrefix?_eq_some_iff.mp dropped
  rw [List.length_append, eq_of_beq same]

theorem length_scanConstant {text rest : Text} {value : Value}
    (scanned : scanConstant text = some (value, rest)) :
    rest.length < text.length := by
  obtain ⟨⟨name, v⟩, mem, found⟩ := List.exists_of_findSome?_eq_some scanned
  obtain ⟨rest, dropped, same⟩ := Option.map_eq_some_iff.mp found
  cases same
  have named : 0 < name.length := by
    simp only [constants, List.mem_cons, Prod.mk.injEq, List.not_mem_nil, or_false] at mem
    rcases mem with ⟨rfl, _⟩ | ⟨rfl, _⟩ | ⟨rfl, _⟩ | ⟨rfl, _⟩ | ⟨rfl, _⟩ | ⟨rfl, _⟩
      <;> decide
  have whole := length_dropPrefix dropped
  omega

theorem consumes_expect {bound c : Nat} {text : Text} (next : Text → Except Failure (α × Text))
    (le : text.length ≤ bound) (rest : ∀ text, text.length < bound → Consumes bound (next text)) :
    Consumes bound (expect c text >>= next) := by
  have blanks := length_skipBlanks text
  unfold expect
  cases left : skipBlanks text with
  | nil => exact consumes_decodeError bound
  | cons d text' =>
    rw [left, List.length_cons] at blanks
    dsimp only
    split
    · apply rest
      omega
    · exact consumes_decodeError bound

theorem length_expect {c : Nat} {text rest : Text} (expected : expect c text = .ok rest) :
    rest.length < text.length := by
  have consumes := consumes_expect (c := c) (fun text => pure ((), text)) (Nat.le_refl text.length)
    fun _ shorter => shorter
  rw [expected] at consumes
  exact consumes

theorem consumes_separated {piece : Text → Except Failure (α × Text)}
    (consumes : ∀ text, Consumes text.length (piece text)) (close : Nat) {rounds : Nat} {text : Text}
    (enough : text.length < rounds) : Consumes text.length (separated piece close rounds text) := by
  induction rounds generalizing text with
  | zero => omega
  | succ rounds ih =>
    apply consumes_bind (consumes text)
    intro item rest shorter
    dsimp only
    cases closed : expect close rest with
    | ok behind => exact Nat.lt_trans (length_expect closed) shorter
    | error e =>
      apply consumes_expect _ (Nat.le_of_lt shorter)
      intro behind left
      have blanks := length_skipBlanks behind
      apply consumes_bind (consumes_mono (ih _) _)
      · exact fun _ _ left => left
      · omega
      · omega

theorem consumes_enclosed {piece : Text → Except Failure (α × Text)}
    (consumes : ∀ text, Consumes text.length (piece text)) (close : Nat) (text : Text) :
    Consumes text.length (enclosed piece close text) := by
  have blanks := length_skipBlanks text
  unfold enclosed
  cases closed : expect close text with
  | ok rest => exact length_expect closed
  | error e => exact consumes_mono (consumes_separated consumes close (Nat.lt_succ_of_le blanks)) blanks

theorem consumes_member {value : Text → Except Failure (Value × Text)}
    (consumes : ∀ text, Consumes text.length (value text)) (text : Text) :
    Consumes text.length (member value text) := by
  cases text with
  | nil => exact consumes_decodeError _
  | cons c text =>
    simp only [member]
    split
    · exact consumes_decodeError _
    · apply consumes_bind (consumes_mono (consumes_scanString text) (Nat.le_succ _))
      intro key rest shorter
      apply consumes_expect _ (Nat.le_of_lt shorter)
      intro rest shorter
      have blanks := length_skipBlanks rest
      apply consumes_bind (consumes_mono (consumes _) (Nat.le_of_lt (Nat.lt_of_le_of_lt blanks shorter)))
      exact fun _ _ left => left

theorem consumes_scanWith {limits : Limits} {nested : Option (Text → Except Failure (Value × Text))}
    (consumes : ∀ value ∈ nested, ∀ text, Consumes text.length (value text)) (text : Text) :
    Consumes text.length (scanWith limits nested text) := by
  cases text with
  | nil => exact consumes_decodeError _
  | cons c text =>
    have past : ∀ {α : Type} {scan : Except Failure (α × Text)}, Consumes text.length scan →
        Consumes (c :: text).length scan := fun scanned => consumes_mono scanned (Nat.le_succ _)
    simp only [scanWith]
    split
    · exact consumes_bind (past (consumes_scanString text)) fun _ _ shorter => shorter
    · split
      · cases nested with
        | none => simp [Consumes]
        | some value =>
          have members := consumes_enclosed (consumes_member (consumes value rfl)) (code '}') text
          exact consumes_bind (past members) fun _ _ shorter => shorter
      · split
        · cases nested with
          | none => simp [Consumes]
          | some value =>
            have items := consumes_enclosed (consumes value rfl) (code ']') text
            exact consumes_bind (past items) fun _ _ shorter => shorter
        · cases scanned : scanConstant (c :: text) with
          | some found => exact length_scanConstant scanned
          | none => exact consumes_scanNumber limits (c :: text)

theorem consumes_scanOnce (limits : Limits) (depth : Nat) (text : Text) :
    Consumes text.length (scanOnce limits depth text) := by
  induction depth generalizing text with
  | zero => exact consumes_scanWith (by simp) text
  | succ depth ih =>
    apply consumes_scanWith
    intro value inside
    exact Option.mem_some_iff.mp inside ▸ ih

end Rounds

theorem loads_not_exhausted (limits : Limits) (bytes : List UInt8) :
    loads limits bytes ≠ .error .exhausted := by
  unfold loads
  dsimp only
  cases decode (bytes.map UInt8.toNat) (detectEncoding (bytes.map UInt8.toNat)) with
  | none => simp
  | some text =>
    have consumes := consumes_scanOnce limits limits.nesting (skipBlanks text)
    dsimp only [decodeText]
    cases scanned : scanOnce limits limits.nesting (skipBlanks text) with
    | error e =>
      rw [scanned] at consumes
      intro same
      exact consumes (Except.error.inj same)
    | ok scan =>
      show (if (skipBlanks scan.2).isEmpty then Except.ok scan.1 else .error Failure.jsonDecodeError) ≠ _
      split <;> simp

end JsonText
