import ThemeTemplates.Proofs.Page.Lexing
import ThemeTemplates.Proofs.Page.Tidy

/-!
# Outlines of pages

What the directives of a template say: text, echoes, conditionals and loops. A page codes its
outline in statements; each loop becomes a `for` over the items of a new frame, with the calls that
move and close the frame around it.
-/

namespace ThemeTemplates

/-- The rest of a template as its directives have it. -/
inductive Outline where
  | done
  | text (s : String) (rest : Outline)
  | echo (value : Expression) (rest : Outline)
  | conditional (condition : Expression) (body otherwise rest : Outline)
  /-- A loop whose items come from a call on a line with the given sources. -/
  | loop (kind : LoopKind) (line : Nat) (name : String) (sources : List Expression)
    (body rest : Outline)

namespace Outline

/-- The kind of loop that a call which opens one names in its last argument, and its other
arguments. -/
def opening? (args : List Expression) : Option (LoopKind × List Expression) :=
  match args.getLast? with
  | some (.constant _ (.text name _)) =>
      (LoopKind.ofName? name).map fun kind => (kind, args.dropLast)
  | _ => none

mutual
/-- A statement in front of an outline. Those that move or close a frame leave no trace. -/
def ofStatement : Statement → Outline → Outline
  | .text s, rest => .text s rest
  | .echo value, rest => .echo value rest
  | .conditional condition body otherwise, rest =>
    .conditional condition (ofStatements body) (ofStatements otherwise) rest
  | .forEach (some name) (.call line _ args) body _, rest =>
    match opening? args with
    | some (kind, sources) => .loop kind line name sources (ofStatements body) rest
    | none => rest
  | _, rest => rest

def ofStatements : List Statement → Outline
  | [] => .done
  | statement :: rest => ofStatement statement (ofStatements rest)
end

/-- Statements that code an outline in which no hidden function is named. -/
inductive Codes (hidden : String → Prop) : Outline → List Statement → Prop
  | done : Codes hidden .done []
  | text (s : String) {outline : Outline} {rest : List Statement}
    (codesRest : Codes hidden outline rest) : Codes hidden (.text s outline) (.text s :: rest)
  | echo {value : Expression} {outline : Outline} {rest : List Statement}
    (avoids : value.Avoids hidden) (codesRest : Codes hidden outline rest) :
    Codes hidden (.echo value outline) (.echo value :: rest)
  | conditional {condition : Expression} {outlineBody outlineOther outline : Outline}
    {body otherwise rest : List Statement} (avoids : condition.Avoids hidden)
    (codesBody : Codes hidden outlineBody body) (codesOther : Codes hidden outlineOther otherwise)
    (codesRest : Codes hidden outline rest) :
    Codes hidden (.conditional condition outlineBody outlineOther outline)
      (.conditional condition body otherwise :: rest)
  | loop (kind : LoopKind) {name : String} {sources : List Expression}
    {pushLine pushKind stepLine stepItem stepKind popLine popKind : Nat}
    {outlineBody outline : Outline} {body rest : List Statement}
    (visible : ¬ Token.IsHidden name) (avoids : Expression.AllAvoid hidden sources)
    (codesBody : Codes hidden outlineBody body) (codesRest : Codes hidden outline rest) :
    Codes hidden (.loop kind pushLine name sources outlineBody outline)
      (.forEach (some name)
          (.call pushLine PageFunction.loopPush.name
            (sources ++ [.constant pushKind (.ofString kind.name)]))
          (.set "blade_loop"
              (.call stepLine PageFunction.loopNext.name
                [.named stepItem name, .constant stepKind (.ofString kind.name)]) ::
            body)
          [] ::
        .set "blade_loop"
            (.call popLine PageFunction.loopPop.name
              [.constant popKind (.ofString kind.name)]) ::
          rest)

namespace Codes

variable {hidden : String → Prop} {outline : Outline} {statements : List Statement}

theorem ofStatements_eq (h : Codes hidden outline statements) :
    ofStatements statements = outline := by
  induction h with
  | done => rfl
  | text s _ ih => simp [ofStatements, ofStatement, ih]
  | echo _ _ ih => simp [ofStatements, ofStatement, ih]
  | conditional _ _ _ _ ihBody ihOther ihRest =>
      simp [ofStatements, ofStatement, ihBody, ihOther, ihRest]
  | loop kind _ _ _ _ ihBody ihRest =>
      simp [ofStatements, ofStatement, opening?, Value.ofString, LoopKind.ofName?_name,
        ihBody, ihRest]

theorem tidy (visible : ¬ hidden "blade_loop") (h : Codes hidden outline statements) :
    Tidy hidden statements := by
  induction h with
  | done => exact .nil
  | text s _ ih => exact .text s ih
  | echo avoids _ ih => exact .echo avoids ih
  | conditional avoids _ _ _ ihBody ihOther ihRest =>
      exact .conditional avoids ihBody ihOther ihRest
  | loop kind _ avoids _ _ ihBody ihRest => exact .loop kind visible visible avoids ihBody ihRest

end Codes

end Outline

end ThemeTemplates
