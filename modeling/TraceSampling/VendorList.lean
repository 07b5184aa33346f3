import TraceSampling.Text.Split

/-!
# The list of vendor entries

The header that travels with a trace: members of a key and a value each, the most recent first.
Every vendor may write its own member and must pass the others on as they are.
-/

namespace TraceSampling

structure VendorMember where
  key : String
  value : String
  deriving DecidableEq, Repr

structure VendorList where
  members : List VendorMember := []
  deriving DecidableEq, Repr

namespace VendorList

inductive Fault where
  | notAMember (item : String)
  | invalidKey (key : String)
  | invalidValue (value : String)
  deriving DecidableEq, Repr

/-- The wording of a fault; `rules` is the address of the document that states the rules. -/
def Fault.message (rules : String) : Fault → String
  | .notAMember item =>
    s!"{item} is not a valid list member in TraceState, see {rules}#list for more details"
  | .invalidKey key =>
    s!"{key} is not a valid key in TraceState, see {rules}#key for more details"
  | .invalidValue value =>
    s!"{value} is not a valid value in TraceState, see {rules}#value for more details"

/-! ## Keys and values -/

/-- A lower-case letter or a digit, with which a key and a vendor name begin. -/
def isKeyHead (c : Char) : Bool :=
  decide ('a' ≤ c ∧ c ≤ 'z') || decide ('0' ≤ c ∧ c ≤ '9')

def isKeyTail (c : Char) : Bool :=
  isKeyHead c || c = '_' || c = '-' || c = '*' || c = '/'

/-- What may stand behind the sign that opens a vendor name: at most thirteen characters. -/
def isVendorName (cs : List Char) : Bool :=
  cs.head?.all isKeyHead && cs.all isKeyTail && cs.length ≤ 13

def isValidKey (key : String) : Bool :=
  let cs := key.toList
  cs.length ≤ 256 && cs.head?.all isKeyHead &&
    match Split.cut? '@' cs with
    | none => cs.all isKeyTail
    | some (tenant, vendor) => tenant.all isKeyTail && isVendorName vendor

def isValidValue (value : String) : Bool :=
  value.utf8ByteSize ≤ 256 && value.toList.all fun c => c ≠ ',' && c ≠ '='

def checkMember (m : VendorMember) : Except Fault VendorMember :=
  if !isValidKey m.key then .error (.invalidKey m.key)
  else if !isValidValue m.value then .error (.invalidValue m.value)
  else .ok m

/-! ## Reading and writing -/

/-- Key and value part at the first equals sign; more of them directly behind it are skipped. -/
def readMember (item : List Char) : Except Fault VendorMember :=
  match Split.cut? '=' item with
  | none => .error (.notAMember (String.ofList item))
  | some (key, value) =>
    .ok ⟨String.ofList key, String.ofList (value.dropWhile (· = '='))⟩

/-- One empty item at the end does not count. -/
def items (cs : List Char) : List (List Char) :=
  let ps := Split.pieces ',' cs
  if ps.getLast? = some [] then ps.dropLast else ps

/-- All members must have their form before any key or value is looked at. -/
def read (header : String) : Except Fault VendorList := do
  let ms ← (items header.toList).mapM readMember
  return ⟨← ms.mapM checkMember⟩

def writeMember (m : VendorMember) : List Char := m.key.toList ++ '=' :: m.value.toList

def write (l : VendorList) : String :=
  String.ofList (Split.join ',' (l.members.map writeMember))

/-! ## Look-up and change -/

/-- The value of the first member with a key. -/
def get? (l : VendorList) (key : String) : Option String :=
  (l.members.find? (·.key = key)).map VendorMember.value

/-- The list without the first member of a key. -/
def without (l : VendorList) (key : String) : VendorList :=
  ⟨l.members.eraseP (·.key = key)⟩

def erase (l : VendorList) (key : String) : Except Fault VendorList :=
  if isValidKey key then .ok (l.without key) else .error (.invalidKey key)

/-- Puts a member in front and takes the first one with its key away. -/
def insert (l : VendorList) (key value : String) : Except Fault VendorList := do
  let m ← checkMember ⟨key, value⟩
  return ⟨m :: (l.without key).members⟩

end VendorList

end TraceSampling
