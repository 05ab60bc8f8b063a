import Stencil.Diagnostic.Snippet
import Stencil.Notice
import Stencil.Similarity

/-!
Failures and their wording.  Under strictness a reference whose path leads nowhere is a failure, which
names the closest key that would have been there; blocks nested too deeply are a failure always.  Each
failure has a message and a compact form, in which the code that identifies it comes first.
-/

set_option autoImplicit false
set_option relaxedAutoImplicit false

namespace Stencil

/-- The codes that identify failures. -/
inductive Code
  | undefinedVariable
  | nestingDepth
deriving DecidableEq, Repr

namespace Code

def text : Code → Text
  | undefinedVariable => "C-RUN-001".toList
  | nestingDepth => "C-RUN-002".toList

def name : Code → Text
  | undefinedVariable => "UNDEFINED_VARIABLE".toList
  | nestingDepth => "NESTING_DEPTH".toList

def ofText? (text : Text) : Option Code :=
  [undefinedVariable, nestingDepth].find? fun code => code.text = text

/-- The category that the middle part of a code stands for. -/
def category (code : Code) : Text :=
  match Text.pieces '-' code.text with
  | _ :: area :: _ => if area = "RUN".toList then "runtime".toList else "unknown".toList
  | _ => "unknown".toList

end Code

/-- What is wrong with a text that should name one of several things of a kind. -/
def unknownMessage (text kind : Text) : Text :=
  Quoted.text text ++ " is not a valid ".toList ++ kind

/-- A template and a line in it, as messages show them.  Line zero is no line. -/
def shownLocation (template : Option Text) (line : Option Int) : Text :=
  shownName template ++
    match line with
    | none => []
    | some line => if line = 0 then [] else ':' :: intText line

/-- A reference whose path leads nowhere. -/
structure UndefinedVariable where
  path : Text
  template : Option Text
  line : Option Int
  /-- The names that could have been used in place of the last segment of the path. -/
  available : List Text
  snippet : Option Snippet
deriving DecidableEq, Repr

namespace UndefinedVariable

/-- The available name that is closest to the last segment of the path. -/
def suggestion (failure : UndefinedVariable) : Option Text :=
  Similarity.closest? (Text.afterLast '.' failure.path) failure.available

def summary (failure : UndefinedVariable) (colored : Bool) : Text :=
  "Undefined variable '".toList ++ failure.path ++ "' in ".toList ++
    Role.location.paint colored (shownLocation failure.template failure.line)

def hintLines (failure : UndefinedVariable) (colored : Bool) : List Text :=
  match failure.suggestion with
  | some (c :: name) =>
    ["  ".toList ++ Role.hint.paint colored "Hint:".toList ++ " Did you mean '".toList ++
      Role.suggestion.paint colored (c :: name) ++ "'?".toList]
  | _ => []

def details (failure : UndefinedVariable) (colored : Bool) : List Text :=
  (failure.snippet.map fun snippet => snippet.shown colored).toList ++ failure.hintLines colored

def message (failure : UndefinedVariable) (colored : Bool) : Text :=
  failure.summary colored ++ (failure.details colored).flatMap ('\n' :: ·)

end UndefinedVariable

/-- A block nested more deeply than allowed. -/
structure NestingExceeded where
  limit : Int
  template : Option Text
  line : Option Int
  snippet : Option Snippet
deriving DecidableEq, Repr

namespace NestingExceeded

def advice (colored : Bool) : Text :=
  "  ".toList ++ Role.hint.paint colored "Hint:".toList ++
    " Flatten the template or raise Environment(max_nesting_depth=...)".toList

def message (failure : NestingExceeded) (colored : Bool) : Text :=
  "Block nesting deeper than ".toList ++ intText failure.limit ++ " levels in ".toList ++
    Role.location.paint colored (shownLocation failure.template failure.line) ++
    (match failure.snippet with
      | none => []
      | some snippet => '\n' :: snippet.shown colored) ++
    '\n' :: advice colored

end NestingExceeded

/-- A message after a code in the colors of one, or by itself when the code is empty. -/
def errorHeader (colored : Bool) (code message : Text) : Text :=
  if code = [] then message
  else Role.errorCode.paint colored code ++ ": ".toList ++ message

/-- Why the work on a template ended. -/
inductive Failure
  | undefined (failure : UndefinedVariable)
  | nesting (failure : NestingExceeded)
  /-- A failure that is known by its message alone. -/
  | other (message : Text) (code : Option Code)
deriving DecidableEq, Repr

namespace Failure

def code : Failure → Option Code
  | undefined _ => some .undefinedVariable
  | nesting _ => some .nestingDepth
  | other _ code => code

def message (failure : Failure) (colored : Bool) : Text :=
  match failure with
  | undefined failure => failure.message colored
  | nesting failure => failure.message colored
  | other message _ => message

/-- A message after a code, unless the code is in the message already. -/
def prefaced (code : Option Code) (message : Text) : Text :=
  match code with
  | none => message
  | some code =>
    if Text.has code.text message then message else code.text ++ ": ".toList ++ message

def compact (failure : Failure) (colored : Bool) : Text :=
  match failure with
  | undefined failure =>
    Text.joined ['\n']
      (errorHeader colored Code.undefinedVariable.text (failure.summary colored) ::
        failure.details colored)
  | nesting failure => prefaced (some .nestingDepth) (failure.message colored)
  | other message code => prefaced code message

end Failure

end Stencil
