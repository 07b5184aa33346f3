import TraceSampling.Binary64.Shortest

/-!
# Span attributes

Keyed values, their texts, and the keys that sampling reads and writes. Rules and look-ups see a
value only through its text.
-/

namespace TraceSampling

inductive Value where
  | text (s : String)
  | int (i : Int64)
  | real (x : Binary64)
  | flag (b : Bool)
  | texts (xs : List String)
  | ints (xs : List Int64)
  | reals (xs : List Binary64)
  | flags (xs : List Bool)

namespace Value

def intText (i : Int64) : String := Numeral.decimal i.toInt

def flagText (b : Bool) : String := if b then "true" else "false"

/-- Items in brackets, separated by commas alone. -/
def listText (items : List String) : String := "[" ++ ",".intercalate items ++ "]"

/-- Texts in a list stand between quotes and are not escaped. -/
def toText : Value → String
  | text s => s
  | int i => intText i
  | real x => x.render
  | flag b => flagText b
  | texts xs => listText (xs.map fun s => "\"" ++ s ++ "\"")
  | ints xs => listText (xs.map intText)
  | reals xs => listText (xs.map Binary64.render)
  | flags xs => listText (xs.map flagText)

end Value

structure Attribute where
  key : String
  value : Value

namespace Attribute

def text (a : Attribute) : String := a.value.toText

/-- The first attribute with a key. -/
def first? (attributes : List Attribute) (key : String) : Option Attribute :=
  attributes.find? (·.key = key)

/-- The text of the first attribute with a key, unless it is empty. -/
def filledText? (attributes : List Attribute) (key : String) : Option String :=
  ((first? attributes key).map text).filter (· ≠ "")

end Attribute

/-! ## Keys -/

namespace Key

/-- Forces a span to be kept. -/
def force : String := "sampler.force"

def callerService : String := "caller.service"
def callerMethod : String := "caller.method"
def calleeService : String := "callee.service"
def calleeMethod : String := "callee.method"
def rpcService : String := "rpc.service"
def rpcMethod : String := "rpc.method"
def peerService : String := "peer.service"

/-- Names the strategy of a kept span. -/
def strategy : String := "sampler.strategy"

/-- The id of the call-graph node a span belongs to, as a signed word of the same bits. -/
def workflowPath : String := "sampler.workflow.path"

def workflowParentPath : String := "sampler.workflow.parent_path"
def workflowResult : String := "sampler.workflow.result"

end Key

end TraceSampling
