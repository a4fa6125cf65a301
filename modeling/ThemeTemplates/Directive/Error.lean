/-!
# Compile errors

What can be wrong with a template before it is rendered, as causes. `CompileError.message` holds the
wording.
-/

namespace ThemeTemplates

/-- Why the arguments of a directive were refused. -/
inductive Malformation where
  | missingAs
  | missingSource
  | badBinding (binding : String)
  | partialShape
  | partialNameNotQuoted
  | partialNameEmpty
  | tooManyConfigurations
  | missingItem
  | missingAbility
  | unexpectedArguments
  /-- A reason of a directive that is not built in. -/
  | custom (reason : String)
deriving DecidableEq, Repr

inductive Imbalance where
  | noOpenBlock (group : String)
  | otherBlock (group innermost : String) (line : Nat)
  | neverClosed (line : Nat)
  | custom (reason : String)
deriving DecidableEq, Repr

inductive SyntaxFault where
  | unclosedTag (opener : String)
  | unterminatedArguments (directive : String)
  /-- A complaint of the page language about an expanded source. -/
  | page (reason : String)
deriving DecidableEq, Repr

inductive CompileError where
  | unknownDirective (name : String)
  | malformed (directive argument : String) (reason : Malformation)
  | unbalanced (directive : String) (reason : Imbalance)
  | invalid (fault : SyntaxFault)
deriving DecidableEq, Repr

def Malformation.message : Malformation → String
  | missingAs => "expected `<source> as $<binding>`"
  | missingSource => "missing source expression"
  | badBinding binding => s!"binding `{binding}` is not a variable such as `$item`"
  | partialShape => "expected `('name')` or `('name', data)`"
  | partialNameNotQuoted => "partial name must be a quoted string"
  | partialNameEmpty => "partial name is empty"
  | tooManyConfigurations => "expected at most one configuration argument"
  | missingItem => "expected an item expression"
  | missingAbility => "expected an ability"
  | unexpectedArguments => "takes no arguments"
  | custom reason => reason

def Imbalance.message : Imbalance → String
  | noOpenBlock group => s!"no open `{group}` block"
  | otherBlock group innermost line =>
    s!"expected inside a `{group}` block, but the innermost block is @{innermost} from line {line}"
  | neverClosed line => s!"opened on line {line} and never closed"
  | custom reason => reason

def SyntaxFault.message : SyntaxFault → String
  | unclosedTag opener => s!"unclosed `{opener}`"
  | unterminatedArguments directive => s!"unterminated argument list for @{directive}"
  | page reason => reason

def CompileError.message : CompileError → String
  | unknownDirective name => s!"unknown directive @{name}"
  | malformed directive argument reason =>
    s!"malformed @{directive} directive: {reason.message} (argument: `{argument}`)"
  | unbalanced directive reason => s!"unbalanced directive @{directive}: {reason.message}"
  | invalid fault => s!"syntax error: {fault.message}"

end ThemeTemplates
