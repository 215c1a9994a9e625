/-!
# Names of palette categories

The fixed categories that a palette is divided into, with their label, description and search
words.
-/

namespace FlowDiagram.Palette

/-- A fixed category of the palette; the root holds the others. -/
inductive CategoryName where
  | root
  | connections
  | statement
  | control
  | errorHandling
  | concurrency
  deriving DecidableEq

namespace CategoryName

/-- The name by which messages speak of a category. -/
def identifier : CategoryName → String
  | .root => "Root"
  | .connections => "Connections"
  | .statement => "Statement"
  | .control => "Control"
  | .errorHandling => "ErrorHandling"
  | .concurrency => "Concurrency"

def label : CategoryName → String
  | .root => "Root"
  | .connections => "Connections"
  | .statement => "Statement"
  | .control => "Control"
  | .errorHandling => "Error Handling"
  | .concurrency => "Concurrency"

def description : CategoryName → String
  | .root => "The topmost category"
  | .connections => "The connections used in the flow"
  | .statement => "Fundamental executable units in a program"
  | .control => "Allows execution of different blocks of code based on conditions"
  | .errorHandling => "Handles errors that occur during execution"
  | .concurrency => "Enables the execution of multiple strands concurrently"

/-- The words under which a category is found. -/
def keywords : CategoryName → List String
  | .root => []
  | .connections => ["Connection", "Client", "Endpoint"]
  | .statement => ["Statement", "Variable", "Assignment"]
  | .control => ["Control", "Loop", "Condition", "Branch"]
  | .errorHandling => ["Error", "Fail", "Panic"]
  | .concurrency => ["Concurrency", "Transaction", "Lock", "Strand"]

def identifiers : List (String × CategoryName) :=
  [.root, .connections, .statement, .control, .errorHandling, .concurrency].map
    fun name => (name.identifier, name)

end CategoryName

end FlowDiagram.Palette
