import ThemeTemplates.Directive.Builtin

/-!
# The code of loops and items

What stands in a page for the directives that loop and for those that set the current item, letter
by letter.
-/

namespace ThemeTemplates

/-- The code in front of the body of a loop that binds a name to some items. -/
def loopStart (directive name items : List Char) : List Char :=
  "\x7b% for ".toList ++ name ++ " in __loop_push(".toList ++ items ++ ", '".toList ++
    directive ++ "') %\x7d\x7b% set blade_loop = __loop_next(".toList ++ name ++
    ", '".toList ++ directive ++ "') %\x7d".toList

def loopEnd (directive : List Char) : List Char :=
  "\x7b% endfor %\x7d\x7b% set blade_loop = __loop_pop('".toList ++ directive ++ "') %\x7d".toList

namespace Registry

def code? (registry : Registry) (name : String) (args : List Char) : Option (List Char) :=
  (registry.expand name args).toOption

/-- A registry whose directives loop over the items of their arguments, and set the current item to
their argument or back. -/
structure Loops (registry : Registry) : Prop where
  loop : ∀ args, registry.code? "loop" args = (Iteration.parseLoop args).toOption.map
    fun iteration => loopStart "loop".toList iteration.boundName (pageExpression iteration.source)
  endLoop : ∀ args, registry.code? "endloop" args =
    if unwrap args = [] then some (loopEnd "loop".toList) else none
  simpleMenu : ∀ args, registry.code? "simplemenu" args =
    (Iteration.parse "simplemenu" args).toOption.map fun iteration =>
      loopStart "simplemenu".toList iteration.boundName
        (pageExpression ("__nav_menu(".toList ++ iteration.source ++ ")".toList))
  endSimpleMenu : ∀ args, registry.code? "endsimplemenu" args =
    if unwrap args = [] then some (loopEnd "simplemenu".toList) else none
  setPostData : ∀ args, registry.code? "setpostdata" args =
    if unwrap args = [] then none
    else some ("\x7b\x7b __set_current_item(".toList ++ pageExpression (unwrap args) ++
      ") \x7d\x7d".toList)
  resetPostData : ∀ args, registry.code? "resetpostdata" args =
    if unwrap args = [] then some "\x7b\x7b __reset_current_item() \x7d\x7d".toList else none

end Registry

namespace Builtin

theorem kindLiteral_eq (kind : LoopKind) :
    kindLiteral kind = '\'' :: (kind.name.toList ++ ['\'']) := by
  cases kind <;> decide +kernel

/-- The tags of a loop in one piece. The words are variables, because those of a page are slow to
compare. -/
theorem append_openLoop
    {first push quote step last forWord inWord call comma set loop equals next : List Char}
    (hfirst : first = ['\x7b', '%', ' '] ++ forWord) (hpush : push = inWord ++ (call ++ ['(']))
    (hquote : quote = comma ++ ['\''])
    (hstep : step = ['\'', ')', ' ', '%', '\x7d', '\x7b', '%', ' '] ++
      (set ++ (loop ++ (equals ++ (next ++ ['('])))))
    (hlast : last = ['\'', ')', ' ', '%', '\x7d']) (kind name items : List Char) :
    [Tag.statement (forWord ++ name ++ inWord ++
        (call ++ '(' :: ((items ++ comma ++ '\'' :: (kind ++ ['\''])) ++ [')']))),
      .statement (set ++ loop ++ equals ++
        (next ++ '(' :: ((name ++ comma ++ '\'' :: (kind ++ ['\''])) ++ [')'])))].flatMap
          Tag.print =
      first ++ name ++ push ++ items ++ quote ++ kind ++ step ++ name ++ quote ++ kind ++ last := by
  subst hfirst hpush hquote hstep hlast
  simp [Tag.print]

theorem print_openLoop (kind : LoopKind) (iteration : Iteration) :
    printTags (openLoop kind iteration) =
      loopStart kind.name.toList iteration.boundName (pageExpression iteration.source) := by
  have first : "\x7b% for ".toList = ['\x7b', '%', ' '] ++ "for ".toList := by decide +kernel
  have push : " in __loop_push(".toList = " in ".toList ++ ("__loop_push".toList ++ ['(']) := by
    decide +kernel
  have quote : ", '".toList = ", ".toList ++ ['\''] := by decide +kernel
  have step : "') %\x7d\x7b% set blade_loop = __loop_next(".toList =
      ['\'', ')', ' ', '%', '\x7d', '\x7b', '%', ' '] ++ ("set ".toList ++ ("blade_loop".toList ++
        (" = ".toList ++ ("__loop_next".toList ++ ['('])))) := by
    decide +kernel
  have last : "') %\x7d".toList = ['\'', ')', ' ', '%', '\x7d'] := by decide +kernel
  unfold printTags openLoop setLoopVariable loopVariable PageFunction.call commaSeparated
  rw [kindLiteral_eq]
  exact append_openLoop first push quote step last _ _ _

theorem code_withoutArguments (name : String) (tags : List Tag) (args : List Char) :
    ((withoutArguments name tags args).map printTags).toOption =
      if unwrap args = [] then some (printTags tags) else none := by
  unfold withoutArguments
  by_cases empty : unwrap args = []
  · simp [empty, Except.map, Except.toOption]
  · simp [empty, refuse, Except.map, Except.toOption]

theorem loops_builtin : Registry.builtin.Loops where
  loop args := by
    change ((loop args).map printTags).toOption = _
    unfold loop
    cases Iteration.parseLoop args with
    | error error => rfl
    | ok iteration => exact congrArg some (print_openLoop .loop iteration)
  endLoop args := code_withoutArguments "endloop" _ args
  simpleMenu args := by
    change ((simpleMenu args).map printTags).toOption = _
    unfold simpleMenu
    cases Iteration.parse "simplemenu" args with
    | error error => rfl
    | ok iteration => exact congrArg some (print_openLoop .simpleMenu _)
  endSimpleMenu args := code_withoutArguments "endsimplemenu" _ args
  setPostData args := by
    change ((setPostData args).map printTags).toOption = _
    unfold setPostData
    by_cases empty : unwrap args = []
    · simp [empty, refuse, Except.map, Except.toOption]
    · simp [empty, printTags, Tag.print, PageFunction.call, PageFunction.name, Except.map,
        Except.toOption]
  resetPostData args := code_withoutArguments "resetpostdata" _ args

end Builtin

end ThemeTemplates
