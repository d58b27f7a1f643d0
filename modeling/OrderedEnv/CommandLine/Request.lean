import OrderedEnv.Path
import OrderedEnv.Shell
import OrderedEnv.View

/-!
# Requests

What the tool can be asked to do.
-/

namespace OrderedEnv

/-- How a view is printed. -/
inductive OutputFormat where
  /-- One line for each variable. -/
  | plain
  /-- An object of JSON. -/
  | json
  deriving DecidableEq, Repr

/-- Where the value of a new declaration comes from. -/
inductive ValueOrigin where
  /-- It is given. -/
  | given (value : String)
  /-- It is the text of a file. -/
  | file (path : Path)
  /-- It is what waits in a pipe on the standard input, and empty if nothing waits there. -/
  | input
  deriving DecidableEq, Repr

/-- What is to be added. -/
structure AddRequest where
  key : String
  origin : ValueOrigin
  options : Options
  /-- The declarations of the variable that are there are kept. -/
  append : Bool
  deriving DecidableEq, Repr

/-- What the tool is asked to do. -/
inductive Request where
  /-- Make a store without declarations, in place of the one that is there if `clear` is set. -/
  | init (clear : Bool)
  /-- Add a declaration. -/
  | add (request : AddRequest)
  /-- Add a declaration that removes a variable. -/
  | unset (key : String)
  /-- Take all declarations out of a store. -/
  | clear
  /-- Print a view of a store. -/
  | print (format : OutputFormat) (options : ViewOptions)
  /-- Print the statements of a shell, of the user's own one if none is named. -/
  | script (shell : Option Shell)
  /-- Run a program in the environment of a store. -/
  | run (program : String) (arguments : List String)
  deriving DecidableEq, Repr

/-- A request and what it is carried out with. -/
structure Invocation where
  /-- The path of the store, if one is given. -/
  path : Option Path
  /-- No question is asked. -/
  tool : Bool
  request : Request
  deriving DecidableEq, Repr

end OrderedEnv
