/-!
# Kinds of palette entries

Every kind of node that a diagram can hold, with its spelling in JSON and its default label and
description. The set is closed; some kinds are reserved, that is, named but not offered yet.
-/

namespace FlowDiagram.Palette

/-- The kind of a node that can be inserted into a diagram. -/
inductive EntryKind where
  | declareVariable
  | assign
  | callFunction
  | dataMapper
  | ifElse
  | matchValue
  | whileLoop
  | foreachLoop
  | returnValue
  | breakLoop
  | continueLoop
  | stop
  | errorHandler
  | fail
  | panic
  | transaction
  | commit
  | rollback
  | retry
  | lock
  | startStrand
  | newConnection
  | callAction
  deriving DecidableEq

namespace EntryKind

def all : List EntryKind :=
  [.declareVariable, .assign, .callFunction, .dataMapper, .ifElse, .matchValue, .whileLoop,
   .foreachLoop, .returnValue, .breakLoop, .continueLoop, .stop, .errorHandler, .fail, .panic,
   .transaction, .commit, .rollback, .retry, .lock, .startStrand, .newConnection, .callAction]

def code : EntryKind → String
  | .declareVariable => "VARIABLE"
  | .assign => "ASSIGN"
  | .callFunction => "FUNCTION"
  | .dataMapper => "DATA_MAPPER"
  | .ifElse => "IF"
  | .matchValue => "MATCH"
  | .whileLoop => "WHILE"
  | .foreachLoop => "FOREACH"
  | .returnValue => "RETURN"
  | .breakLoop => "BREAK"
  | .continueLoop => "CONTINUE"
  | .stop => "STOP"
  | .errorHandler => "ERROR_HANDLER"
  | .fail => "FAIL"
  | .panic => "PANIC"
  | .transaction => "TRANSACTION"
  | .commit => "COMMIT"
  | .rollback => "ROLLBACK"
  | .retry => "RETRY"
  | .lock => "LOCK"
  | .startStrand => "START"
  | .newConnection => "NEW_CONNECTION"
  | .callAction => "ACTION_CALL"

def label : EntryKind → String
  | .declareVariable => "Declare Variable"
  | .assign => "Assign"
  | .callFunction => "Function Call"
  | .dataMapper => "Data Mapper"
  | .ifElse => "If"
  | .matchValue => "Match"
  | .whileLoop => "While"
  | .foreachLoop => "Foreach"
  | .returnValue => "Return"
  | .breakLoop => "Break"
  | .continueLoop => "Continue"
  | .stop => "Stop"
  | .errorHandler => "Error Handler"
  | .fail => "Fail"
  | .panic => "Panic"
  | .transaction => "Transaction"
  | .commit => "Commit"
  | .rollback => "Rollback"
  | .retry => "Retry"
  | .lock => "Lock"
  | .startStrand => "Start"
  | .newConnection => "New Connection"
  | .callAction => "Action Call"

def description : EntryKind → String
  | .declareVariable => "New variable with type"
  | .assign => "Assign a value to a variable"
  | .callFunction => "Call a function"
  | .dataMapper => "Map data from multiple variables to a record type"
  | .ifElse => "Add conditional branch to the integration flow."
  | .matchValue => "Switches the data flow based on the value of an expression."
  | .whileLoop => "Loop over a block of code."
  | .foreachLoop => "Iterate over a block of code."
  | .returnValue => "Value of the function's return expression."
  | .breakLoop => "Break out of the loop"
  | .continueLoop => "Skip the current iteration and continue with the next one"
  | .stop => "Stop the execution of the flow"
  | .errorHandler => "Catch and handle errors"
  | .fail => "Fail the execution"
  | .panic => "Panic and stop the execution"
  | .transaction => "Handle transaction."
  | .commit => "Commit transaction"
  | .rollback => "Rollback transaction"
  | .retry => "Retry block."
  | .lock => "Allow to access mutable states safely"
  | .startStrand => "Execute a function or a method invocation in a new strand"
  | .newConnection => "Create a new connection"
  | .callAction => "Call an action of a connection"

/-- Whether a kind is named but not offered yet. -/
def isReserved : EntryKind → Bool
  | .errorHandler | .transaction | .commit | .rollback | .retry
  | .lock | .startStrand => true
  | _ => false

def codes : List (String × EntryKind) := all.map fun kind => (kind.code, kind)

end EntryKind

end FlowDiagram.Palette
