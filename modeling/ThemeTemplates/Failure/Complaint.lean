import ThemeTemplates.Loop.Kind

/-!
# Complaints

What can go wrong while a compiled page is evaluated, as causes with one wording each.
-/

namespace ThemeTemplates

/-- Why the evaluation of a page cannot go on. -/
inductive Complaint where
  | notAList (kind : LoopKind)
  | unknownLoopKind (kind : String)
  /-- Data for a partial that is not a record. -/
  | dataNotRecord (template : String)
  /-- More child renders in progress than `limit`. -/
  | nestedTooDeep (limit : Nat)
  | unknownFunction (name : String)
  | unknownFilter (name : String)
  | unknownTest (name : String)
  | notCallable
  | missingArgument
  | tooManyArguments
  /-- An argument that has to be a text and is not. -/
  | textExpected
  | unsupportedOperands (operator : String)
  | notIterable
  | templateNameNotText
  | failingInclude (template : String)
  | inheritanceCycle (template : String)
  | secondParent
  | evaluationTooDeep
  | badEscape
  | custom (reason : String)
deriving DecidableEq, Repr

def Complaint.message : Complaint → String
  | notAList kind => s!"@{kind.name} over a value that is not a list"
  | unknownLoopKind kind => s!"unknown loop kind `{kind}`"
  | dataNotRecord template => s!"data for '{template}' must be a map"
  | nestedTooDeep limit => s!"partials nested more than {limit} deep"
  | unknownFunction name => s!"{name} is unknown"
  | unknownFilter name => s!"filter {name} is unknown"
  | unknownTest name => s!"test {name} is unknown"
  | notCallable => "value is not callable"
  | missingArgument => "missing argument"
  | tooManyArguments => "too many arguments"
  | textExpected => "value is not a string"
  | unsupportedOperands operator => s!"tried to use {operator} operator on unsupported types"
  | notIterable => "value is not iterable"
  | templateNameNotText => "template name was not a string"
  | failingInclude template => s!"error in \"{template}\""
  | inheritanceCycle template => s!"cycle in template inheritance at \"{template}\""
  | secondParent => "tried to extend a second time in a template"
  | evaluationTooDeep => "recursion limit exceeded"
  | badEscape => "bad string escape"
  | custom reason => reason

/-- Whether a complaint is about the use of the directives and not about the page language. -/
def Complaint.ofDirectives : Complaint → Bool
  | notAList _ | unknownLoopKind _ | dataNotRecord _ | nestedTooDeep _ => true
  | _ => false

end ThemeTemplates
