import ThemeTemplates.Proofs.Page.Reading

/-!
# What expressions take

Every reader of a part of an expression takes tokens whose brackets match, and no comma outside
brackets; what it reads names nothing that these tokens do not name.
-/

namespace ThemeTemplates

variable {hidden : String → Prop}

namespace Expression

theorem avoids_listFrom {items : List Expression} (h : AllAvoid hidden items) (line : Nat) :
    (listFrom line items).Avoids hidden :=
  h

theorem avoids_mapFrom {entries : List (Expression × Expression)} (h : EntriesAvoid hidden entries)
    (line : Nat) : (mapFrom line entries).Avoids hidden :=
  h

theorem allAvoid_iff {items : List Expression} :
    AllAvoid hidden items ↔ ∀ item ∈ items, item.Avoids hidden := by
  induction items with
  | nil => simp [AllAvoid]
  | cons item rest ih => simp [AllAvoid, ih]

theorem entriesAvoid_iff {entries : List (Expression × Expression)} :
    EntriesAvoid hidden entries ↔
      ∀ entry ∈ entries, entry.1.Avoids hidden ∧ entry.2.Avoids hidden := by
  induction entries with
  | nil => simp [EntriesAvoid]
  | cons entry rest ih => simp [EntriesAvoid, ih]

end Expression

namespace Parse

open Expression

variable {α : Type} {nested : Parse Expression}

abbrev Reads (hidden : String → Prop) (parse : Parse α) (result : α → Prop) : Prop :=
  Takes hidden [] [] parse result

theorem itemsUntil_takes {close : String} (closes : (Token.sign close).bracket? [close] = some [])
    {item : Parse α} {result : α → Prop} (hitem : Reads hidden item result) (steps : Nat) :
    Takes hidden [close] [] (itemsUntil close item steps) fun items => ∀ a ∈ items, result a := by
  induction steps with
  | zero => exact fails_unexpected.takes
  | succ steps ih =>
      unfold itemsUntil
      refine Takes.skipSign _ closes (Takes.pure (List.forall_mem_nil _)) ?_
      refine Takes.bind result (hitem.under [close]) fun first => ?_
      refine Takes.skipSign [close] rfl ?_ ?_
      · refine Takes.bind _ ih fun rest => Takes.pure fun hrest hfirst => ?_
        exact List.forall_mem_cons.mpr ⟨hfirst, hrest⟩
      · refine Takes.bind _ (takes_expectSign closes) fun _ => Takes.pure fun _ hfirst => ?_
        exact List.forall_mem_singleton.mpr hfirst

theorem items_takes {close : String} (closes : (Token.sign close).bracket? [close] = some [])
    {item : Parse α} {result : α → Prop} (hitem : Reads hidden item result) :
    Takes hidden [close] [] (items close item) fun items => ∀ a ∈ items, result a :=
  Takes.look looks_bound fun steps => itemsUntil_takes closes hitem steps

theorem peeks_peekBehindLiteral : Peeks peekBehindLiteral := by
  intro cursor head cursor' run
  obtain ⟨_, reached, ran, rest⟩ := ok_of_run_bind run
  cases ran
  split at rest
  · cases rest
  · exact run_peek rest

theorem adjacentLiterals_reads (steps : Nat) :
    Reads hidden (adjacentLiterals steps) fun _ => True := by
  induction steps with
  | zero => exact Takes.pure trivial
  | succ steps ih =>
      refine Takes.peek peeks_peekBehindLiteral fun head => ?_
      split
      · refine TakesAt.discard rfl ?_
        exact Takes.bind _ ih fun _ => Takes.pure fun _ _ => trivial
      · exact (Takes.pure trivial).at _

theorem avoids_word {s : String} (visible : ¬ hidden s) (line : Nat) :
    (word line s).Avoids hidden := by
  unfold word
  split <;> trivial

theorem entry_reads (h : Reads hidden nested (Avoids hidden)) :
    Reads hidden (entry nested) fun entry => entry.1.Avoids hidden ∧ entry.2.Avoids hidden := by
  refine Takes.bind _ h fun key => ?_
  refine Takes.bind _ (takes_expectSign rfl) fun _ => ?_
  refine Takes.bind _ h fun value => Takes.pure fun hvalue _ hkey => ?_
  exact ⟨hkey, hvalue⟩

theorem parenthesized_takes (h : Reads hidden nested (Avoids hidden)) (line : Nat) :
    Takes hidden [")"] [] (parenthesized line nested) (Avoids hidden) := by
  refine Takes.skipSign [] rfl (Takes.pure trivial) ?_
  refine Takes.bind _ (h.under [")"]) fun first => ?_
  refine Takes.skipSign [")"] rfl ?_ ?_
  · refine Takes.bind _ (items_takes rfl h) fun rest => Takes.pure fun hrest hfirst => ?_
    exact avoids_listFrom (allAvoid_iff.mpr (List.forall_mem_cons.mpr ⟨hfirst, hrest⟩)) line
  · refine Takes.bind _ (takes_expectSign (by rfl)) fun _ => Takes.pure fun _ hfirst => ?_
    exact hfirst

theorem operand_reads (h : Reads hidden nested (Avoids hidden)) :
    Reads hidden (operand nested) (Avoids hidden) := by
  refine Takes.look looks_nextLine fun line => ?_
  refine Takes.peek peeks_peek fun head => ?_
  split
  · next s =>
      exact TakesAt.discard rfl (Takes.pure fun shows => avoids_word (shows s (by simp)) line)
  · refine TakesAt.discard rfl ?_
    refine Takes.look looks_bound fun steps => ?_
    exact Takes.bind _ (adjacentLiterals_reads steps) fun _ => Takes.pure fun _ _ => trivial
  · exact TakesAt.discard rfl (Takes.pure fun _ => trivial)
  · exact TakesAt.discard rfl ((parenthesized_takes h line).weaken fun _ avoids _ => avoids)
  · refine TakesAt.discard rfl ?_
    refine Takes.bind _ (items_takes rfl h) fun items => Takes.pure fun hitems _ => ?_
    exact avoids_listFrom (allAvoid_iff.mpr hitems) line
  · refine TakesAt.discard rfl ?_
    refine Takes.bind _ (items_takes rfl (entry_reads h)) fun entries =>
      Takes.pure fun hentries _ => ?_
    exact avoids_mapFrom (entriesAvoid_iff.mpr hentries) line
  · exact fails_unexpected.takes.at _

theorem signed_reads {parts : Parts} (h : Reads hidden parts.operand (Avoids hidden))
    (steps : Nat) :
    Reads hidden (signed parts steps) (Avoids hidden) := by
  induction steps with
  | zero => exact fails_unexpected.takes
  | succ steps ih =>
      refine Takes.look looks_nextLine fun line => ?_
      refine Takes.skipSign [] rfl ?_ h
      exact Takes.bind _ ih fun operand => Takes.pure id

theorem argument_reads (h : Reads hidden nested (Avoids hidden)) :
    Reads hidden (argument nested) fun arg => arg.2.Avoids hidden := by
  refine Takes.bind _ h fun first => ?_
  split
  · refine Takes.skipSign [] rfl ?_ (Takes.pure id)
    exact Takes.bind _ h fun value => Takes.pure fun hvalue _ => hvalue
  · exact Takes.pure id

theorem argumentsUntil_takes (h : Reads hidden nested (Avoids hidden)) (steps count : Nat)
    (named : Bool) : Takes hidden [")"] [] (argumentsUntil nested steps count named)
      fun args => ∀ arg ∈ args, arg.2.Avoids hidden := by
  induction steps generalizing count named with
  | zero => exact fails_unexpected.takes
  | succ steps ih =>
      unfold argumentsUntil
      refine Takes.skipSign [] rfl (Takes.pure (List.forall_mem_nil _)) ?_
      refine Takes.bind _ ((argument_reads h).under [")"]) fun first => ?_
      refine Takes.ite (fun _ => ?_) fun _ => Takes.ite (fun _ => ?_) fun _ => ?_
      · exact (fails_bind fun _ => (fails_failAt _ _).bind _).takes
      · exact (fails_bind fun _ => (fails_failAt _ _).bind _).takes
      · refine Takes.skipSign [")"] rfl ?_ ?_
        · refine Takes.bind _ (ih _ _) fun rest => Takes.pure fun hrest hfirst => ?_
          exact List.forall_mem_cons.mpr ⟨hfirst, hrest⟩
        · refine Takes.bind _ (takes_expectSign (by rfl)) fun _ => Takes.pure fun _ hfirst => ?_
          exact List.forall_mem_singleton.mpr hfirst

theorem arguments_takes (h : Reads hidden nested (Avoids hidden)) (line : Nat) :
    Takes hidden [")"] [] (arguments nested line) (AllAvoid hidden) := by
  refine Takes.look looks_bound fun steps => ?_
  refine Takes.bind _ (argumentsUntil_takes h steps 0 false) fun args => ?_
  have positional (hargs : ∀ arg ∈ args, arg.2.Avoids hidden) :
      ∀ e ∈ (args.filter fun arg => arg.1.isNone).map Prod.snd, e.Avoids hidden := by
    intro e hmem
    obtain ⟨arg, harg, rfl⟩ := List.mem_map.mp hmem
    exact hargs arg (List.mem_of_mem_filter harg)
  refine Takes.ite (fun _ => ?_) fun _ => ?_
  · exact Takes.pure fun hargs => allAvoid_iff.mpr (positional hargs)
  · refine Takes.pure fun hargs => allAvoid_iff.mpr fun e hmem => ?_
    rcases List.mem_append.mp hmem with hmem | hmem
    · exact positional hargs e hmem
    · rw [List.mem_singleton.mp hmem]
      refine entriesAvoid_iff.mpr fun entry hentry => ?_
      obtain ⟨arg, harg, rfl⟩ := List.mem_map.mp hentry
      exact ⟨trivial, hargs arg (List.mem_of_mem_filter harg)⟩

theorem member_reads {base : Expression} :
    Reads hidden (member base) fun e => base.Avoids hidden → e.Avoids hidden := by
  refine Takes.look looks_nextLine fun line => ?_
  refine Takes.peek peeks_peek fun head => ?_
  split
  · exact TakesAt.discard rfl (Takes.pure fun _ avoids => avoids)
  · exact TakesAt.discard rfl (Takes.pure fun _ avoids => ⟨avoids, trivial⟩)
  · exact fails_unexpected.takes.at _

theorem steps_reads (h : Reads hidden nested (Avoids hidden)) (line n : Nat) (base : Expression) :
    Reads hidden (steps nested line n base) fun e => base.Avoids hidden → e.Avoids hidden := by
  induction n generalizing base with
  | zero => exact Takes.pure id
  | succ n ih =>
      unfold steps
      refine Takes.skipSign [] rfl ?_ (Takes.skipSign ["]"] rfl ?_ (Takes.skipSign [")"] rfl ?_ ?_))
      · refine Takes.bind _ member_reads fun e => (ih e).weaken fun _ avoids member base => ?_
        exact avoids (member base)
      · refine Takes.bind _ (h.under ["]"]) fun key => ?_
        refine Takes.bind _ (takes_expectSign (by rfl)) fun _ => ?_
        refine (ih (.element base key)).weaken fun _ avoids _ hkey hbase => ?_
        exact avoids ⟨hbase, hkey⟩
      · simp only [if_true]
        split
        · next name =>
            refine Takes.bind _ (arguments_takes h line) fun args => ?_
            exact (ih (.call _ name args)).weaken fun _ avoids hargs hname => avoids ⟨hname, hargs⟩
        · next other =>
            refine Takes.bind _ (arguments_takes h base.line) fun args => ?_
            exact (ih (.apply _ base args)).weaken fun _ avoids hargs hbase => avoids ⟨hbase, hargs⟩
      · exact Takes.pure id

theorem signedSteps_reads {parts : Parts} (hoperand : Reads hidden parts.operand (Avoids hidden))
    (hnested : Reads hidden parts.nested (Avoids hidden)) :
    Reads hidden (signedSteps parts) (Avoids hidden) := by
  refine Takes.look looks_nextLine fun line => Takes.look looks_bound fun n => ?_
  exact Takes.bind _ (signed_reads hoperand n) fun base => steps_reads hnested line n base

theorem argumentsIfAny_reads (h : Reads hidden nested (Avoids hidden)) (line : Nat) :
    Reads hidden (argumentsIfAny nested line) (AllAvoid hidden) :=
  Takes.skipSign [")"] rfl (arguments_takes h line) (Takes.pure trivial)

section

variable {parts : Parts} (hoperand : Reads hidden parts.operand (Avoids hidden))
  (hnested : Reads hidden parts.nested (Avoids hidden))

include hoperand hnested

theorem bareArgument_reads : Reads hidden (bareArgument parts) (AllAvoid hidden) := by
  refine Takes.look looks_peek fun head => Takes.ite (fun _ => ?_) fun _ => ?_
  · refine Takes.bind _ (signedSteps_reads hoperand hnested) fun e => Takes.pure fun avoids => ?_
    exact ⟨avoids, trivial⟩
  · exact Takes.pure trivial

theorem filters_reads (n : Nat) (base : Expression) :
    Reads hidden (filters parts n base) fun e => base.Avoids hidden → e.Avoids hidden := by
  induction n generalizing base with
  | zero => exact Takes.pure id
  | succ n ih =>
      unfold filters
      refine Takes.skipSign [] rfl ?_ (Takes.skipName ?_ (Takes.pure id))
      · refine Takes.bind _ takes_expectName fun name => ?_
        refine Takes.bind _ (argumentsIfAny_reads hnested base.line) fun args => ?_
        refine (ih (.filter _ base name args)).weaken fun _ avoids hargs _ hbase => ?_
        exact avoids ⟨hbase, hargs⟩
      · refine Takes.skipName ?_ ?_
        all_goals
          refine Takes.bind _ takes_expectName fun name => ?_
          refine Takes.look looks_peek fun head => Takes.ite (fun _ => ?_) fun _ => ?_
        · refine Takes.bind _ (argumentsIfAny_reads hnested base.line) fun args => ?_
          refine (ih (.not (.test _ base name args))).weaken fun _ avoids hargs _ hbase => ?_
          exact avoids ⟨hbase, hargs⟩
        · refine Takes.bind _ (bareArgument_reads hoperand hnested) fun args => ?_
          refine (ih (.not (.test _ base name args))).weaken fun _ avoids hargs _ hbase => ?_
          exact avoids ⟨hbase, hargs⟩
        · refine Takes.bind _ (argumentsIfAny_reads hnested base.line) fun args => ?_
          refine (ih (.test _ base name args)).weaken fun _ avoids hargs _ hbase => ?_
          exact avoids ⟨hbase, hargs⟩
        · refine Takes.bind _ (bareArgument_reads hoperand hnested) fun args => ?_
          refine (ih (.test _ base name args)).weaken fun _ avoids hargs _ hbase => ?_
          exact avoids ⟨hbase, hargs⟩

theorem factor_reads : Reads hidden (factor parts) (Avoids hidden) := by
  refine Takes.look looks_bound fun n => ?_
  refine Takes.bind _ (signedSteps_reads hoperand hnested) fun base => ?_
  exact filters_reads hoperand hnested n base

end

theorem joined_reads {sign : String} (plain : (Token.sign sign).bracket? [] = some [])
    {part : Parse Expression} (h : Reads hidden part (Avoids hidden)) (n : Nat) :
    Reads hidden (joined sign part n) fun operands => ∀ e ∈ operands, e.Avoids hidden := by
  induction n with
  | zero => exact Takes.pure (List.forall_mem_nil _)
  | succ n ih =>
      refine Takes.skipSign [] plain ?_ (Takes.pure (List.forall_mem_nil _))
      refine Takes.bind _ h fun operand => ?_
      refine Takes.bind _ ih fun rest => Takes.pure fun hrest hoperand => ?_
      exact List.forall_mem_cons.mpr ⟨hoperand, hrest⟩

theorem chain_reads {sign : String} (plain : (Token.sign sign).bracket? [] = some [])
    {combine : Expression → Expression → Expression}
    (hcombine : ∀ left right, left.Avoids hidden → right.Avoids hidden →
      (combine left right).Avoids hidden)
    {part : Parse Expression} (h : Reads hidden part (Avoids hidden)) :
    Reads hidden (chain sign combine part) (Avoids hidden) := by
  refine Takes.bind _ h fun first => Takes.look looks_bound fun n => ?_
  refine Takes.bind _ (joined_reads plain h n) fun operands => Takes.pure fun hoperands hfirst => ?_
  induction operands generalizing first with
  | nil => exact hfirst
  | cons operand rest ih =>
      obtain ⟨hoperand, hrest⟩ := List.forall_mem_cons.mp hoperands
      exact ih (combine first operand) hrest (hcombine _ _ hfirst hoperand)

theorem comparison_reads {part : Parse Expression} (h : Reads hidden part (Avoids hidden)) :
    Reads hidden (comparison part) (Avoids hidden) := by
  refine Takes.bind _ h fun first => Takes.look looks_bound fun n => ?_
  refine Takes.bind _ (joined_reads rfl h n) fun operands => ?_
  split
  · exact Takes.pure fun _ hfirst => hfirst
  · exact Takes.pure fun hoperands hfirst => ⟨hfirst, allAvoid_iff.mpr hoperands⟩

theorem negation_reads {parts : Parts} (hoperand : Reads hidden parts.operand (Avoids hidden))
    (hnested : Reads hidden parts.nested (Avoids hidden)) (n : Nat) :
    Reads hidden (negation parts n) (Avoids hidden) := by
  induction n with
  | zero => exact fails_unexpected.takes
  | succ n ih =>
      refine Takes.skipName ?_ ?_
      · exact Takes.bind _ ih fun operand => Takes.pure id
      · have sums : ∀ left right : Expression, left.Avoids hidden → right.Avoids hidden →
            (Expression.sum left right).Avoids hidden := fun _ _ hleft hright => ⟨hleft, hright⟩
        have joins : ∀ left right : Expression, left.Avoids hidden → right.Avoids hidden →
            (Expression.join left right).Avoids hidden := fun _ _ hleft hright => ⟨hleft, hright⟩
        exact comparison_reads (chain_reads rfl sums (chain_reads rfl joins
          (factor_reads hoperand hnested)))

theorem expressionWithin_reads (levels : Nat) :
    Reads hidden (expressionWithin levels) (Avoids hidden) := by
  induction levels using expressionWithin.induct with
  | case1 =>
      exact Takes.look looks_bound fun n =>
        negation_reads fails_tooDeep.takes fails_tooDeep.takes n
  | case2 ih =>
      exact Takes.look looks_bound fun n =>
        negation_reads (operand_reads fails_tooDeep.takes) ih n
  | case3 levels ih ih' =>
      exact Takes.look looks_bound fun n => negation_reads (operand_reads ih) ih' n

end Parse

end ThemeTemplates
