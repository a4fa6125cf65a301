import Mathlib.Data.List.Forall2
import ThemeTemplates.Proofs.Source.Pairing

/-!
# Sources that expand

A source expands if and only if its directives are known, their blocks nest and each is content with
its arguments. If one is not, the first such directive says why; if all are but a block is left
open, the innermost one does.
-/

namespace ThemeTemplates

/-- Roles that make up whole blocks side by side. In a block of a group, roles that continue the
group may stand among the blocks. -/
inductive WellNested : Option String → List Role → Prop
  | nil (within : Option String) : WellNested within []
  | inline {within : Option String} {rest : List Role} (h : WellNested within rest) :
    WellNested within (.inline :: rest)
  | block {within : Option String} (group : String) {inside rest : List Role}
    (hinside : WellNested (some group) inside) (h : WellNested within rest) :
    WellNested within (.opens group :: (inside ++ .closes group :: rest))
  | continues {group : String} {rest : List Role} (h : WellNested (some group) rest) :
    WellNested (some group) (.continues group :: rest)

theorem WellNested.append {within : Option String} {first second : List Role}
    (hfirst : WellNested within first) (hsecond : WellNested within second) :
    WellNested within (first ++ second) := by
  induction hfirst with
  | nil => exact hsecond
  | inline _ ih => exact .inline (ih hsecond)
  | block group hinside _ _ ih =>
      rw [List.cons_append, List.append_assoc, List.cons_append]
      exact .block group hinside (ih hsecond)
  | continues _ ih => exact .continues (ih hsecond)

def Role.needs? : Role → Option String
  | continues group | closes group => some group
  | inline | opens _ => none

structure Call where
  name : String
  args : List Char
  line : Nat

def Segment.calls : List Segment → List Call
  | [] => []
  | verbatim _ :: rest => calls rest
  | directive name args line :: rest => ⟨name, args, line⟩ :: calls rest

namespace Call

def Plays (registry : Registry) (call : Call) (role : Role) : Prop :=
  ∃ entry, registry.find? call.name = some entry ∧ entry.role = role

/-- The directives are registered and their roles nest. -/
def Nest (registry : Registry) (within : Option String) (calls : List Call) : Prop :=
  ∃ roles, List.Forall₂ (Plays registry) calls roles ∧ WellNested within roles

/-- A directive opens the innermost of the blocks that are left open behind some directives. -/
def LeftOpen (registry : Registry) (calls : List Call) (opener : Call) (group : String) : Prop :=
  ∃ before inside, calls = before ++ opener :: inside ∧ opener.Plays registry (.opens group) ∧
    Nest registry (some group) inside

/-- What is wrong with a directive behind others. It has to be known, then in its place, then
content with its arguments. -/
inductive Fault (registry : Registry) (before : List Call) (call : Call) : CompileError → Prop
  | unknown (h : registry.find? call.name = none) :
    Fault registry before call (.unknownDirective call.name)
  | noBlock {entry : Directive} {group : String} (known : registry.find? call.name = some entry)
    (needs : entry.role.needs? = some group) (h : Nest registry none before) :
    Fault registry before call (.unbalanced call.name (.noOpenBlock group))
  | otherBlock {entry : Directive} {group innermost : String} {opener : Call}
    (known : registry.find? call.name = some entry) (needs : entry.role.needs? = some group)
    (h : LeftOpen registry before opener innermost) (other : innermost ≠ group) :
    Fault registry before call (.unbalanced call.name (.otherBlock group opener.name opener.line))
  | refused {entry : Directive} {error : CompileError}
    (known : registry.find? call.name = some entry)
    (placed : ∀ group, entry.role.needs? = some group →
      ∃ opener, LeftOpen registry before opener group)
    (h : entry.expand call.args = .error error) : Fault registry before call error

def Faultless (registry : Registry) (calls : List Call) : Prop :=
  ∀ before call after, calls = before ++ call :: after →
    ∀ error, ¬ Fault registry before call error

/-- Why some directives are rejected: the fault of the first that has one, or else the innermost
block that is never closed. -/
inductive Rejection (registry : Registry) (calls : List Call) : LocatedError → Prop
  | fault {before after : List Call} {call : Call} {error : CompileError}
    (split : calls = before ++ call :: after) (first : Faultless registry before)
    (h : Fault registry before call error) : Rejection registry calls { line := call.line, error }
  | neverClosed {opener : Call} {group : String} (faultless : Faultless registry calls)
    (h : LeftOpen registry calls opener group) :
    Rejection registry calls
      { line := opener.line, error := .unbalanced opener.name (.neverClosed opener.line) }

variable {registry : Registry} {calls before more : List Call} {call : Call}
  {blocks blocks' outer between : List OpenBlock} {within : Option String} {group : String}
  {error : CompileError}

/-! ### Directives that nest -/

namespace Nest

theorem nil (registry : Registry) (within : Option String) : Nest registry within [] :=
  ⟨[], .nil, .nil within⟩

theorem append (hcalls : Nest registry within calls) (hmore : Nest registry within more) :
    Nest registry within (calls ++ more) := by
  obtain ⟨roles, plays, nested⟩ := hcalls
  obtain ⟨roles', plays', nested'⟩ := hmore
  exact ⟨roles ++ roles', List.rel_append plays plays', nested.append nested'⟩

theorem inline (h : call.Plays registry .inline) : Nest registry within [call] :=
  ⟨[.inline], .cons h .nil, .inline (.nil within)⟩

theorem continues (h : call.Plays registry (.continues group)) :
    Nest registry (some group) [call] :=
  ⟨[.continues group], .cons h .nil, .continues (.nil _)⟩

theorem block {opener closer : Call} (opens : opener.Plays registry (.opens group))
    (h : Nest registry (some group) calls) (closes : closer.Plays registry (.closes group)) :
    Nest registry within (opener :: (calls ++ [closer])) := by
  obtain ⟨roles, plays, nested⟩ := h
  exact ⟨_, .cons opens (List.rel_append plays (.cons closes .nil)), .block group nested
    (.nil within)⟩

end Nest

/-! ### The blocks left open -/

/-- The blocks that some directives leave open, innermost first. -/
inductive Opens (registry : Registry) : List Call → List OpenBlock → Prop
  | none {calls : List Call} (h : Nest registry none calls) : Opens registry calls []
  | block {before inside : List Call} {outer : List OpenBlock} {opener : Call} {group : String}
    (houter : Opens registry before outer) (opens : opener.Plays registry (.opens group))
    (h : Nest registry (some group) inside) :
    Opens registry (before ++ opener :: inside)
      ({ group, directive := opener.name, line := opener.line } :: outer)

theorem opens_nil_iff : Opens registry calls [] ↔ Nest registry none calls :=
  ⟨fun h => by cases h with | none h => exact h, .none⟩

theorem Opens.append (h : Opens registry calls blocks)
    (hmore : ∀ within, Nest registry within more) :
    Opens registry (calls ++ more) blocks := by
  cases h with
  | none h => exact .none (h.append (hmore _))
  | block houter opens h =>
      rw [List.append_assoc, List.cons_append]
      exact .block houter opens (h.append (hmore _))

theorem step_error_iff {directive : String} {role : Role} {line : Nat} :
    OpenBlock.step blocks directive role line = .error error ↔
      ∃ group, role.needs? = some group ∧ blocks.head?.map OpenBlock.group ≠ some group ∧
        OpenBlock.outOfPlace directive group blocks = error := by
  cases role with
  | inline | opens => simp [OpenBlock.step, Role.needs?]
  | continues group | closes group =>
      cases blocks with
      | nil => simp [OpenBlock.step, Role.needs?]
      | cons block outer =>
          by_cases same : block.group = group <;> simp [OpenBlock.step, Role.needs?, same]

theorem exists_step_iff {directive : String} {role : Role} {line : Nat} :
    (∃ blocks', OpenBlock.step blocks directive role line = .ok blocks') ↔
      ∀ group, role.needs? = some group → blocks.head?.map OpenBlock.group = some group := by
  cases stepped : OpenBlock.step blocks directive role line with
  | error error =>
      obtain ⟨group, needs, other, -⟩ := step_error_iff.mp stepped
      exact ⟨fun ⟨_, ok⟩ => (nomatch ok), fun placed => absurd (placed group needs) other⟩
  | ok blocks' =>
      refine ⟨fun _ group needs => ?_, fun _ => ⟨blocks', rfl⟩⟩
      by_contra other
      cases stepped.symm.trans (step_error_iff.mpr ⟨group, needs, other, rfl⟩)

theorem Opens.step (h : Opens registry calls blocks) {entry : Directive}
    (known : registry.find? call.name = some entry)
    (stepped : OpenBlock.step blocks call.name entry.role call.line = .ok blocks') :
    Opens registry (calls ++ [call]) blocks' := by
  have plays : call.Plays registry entry.role := ⟨entry, known, rfl⟩
  cases role : entry.role with
  | inline =>
      rw [role] at plays stepped
      cases stepped
      exact h.append fun _ => .inline plays
  | opens group =>
      rw [role] at plays stepped
      cases stepped
      exact .block h plays (.nil _ _)
  | continues group =>
      rw [role] at plays stepped
      cases h with
      | none => cases stepped
      | @block before inside outer opener innermost houter opens h =>
          by_cases same : innermost = group
          · subst same
            simp only [OpenBlock.step, beq_self_eq_true, if_true, Except.ok.injEq] at stepped
            subst stepped
            rw [List.append_assoc, List.cons_append]
            exact .block houter opens (h.append (.continues plays))
          · simp [OpenBlock.step, same] at stepped
  | closes group =>
      rw [role] at plays stepped
      cases h with
      | none => cases stepped
      | @block before inside outer opener innermost houter opens h =>
          by_cases same : innermost = group
          · subst same
            simp only [OpenBlock.step, beq_self_eq_true, if_true, Except.ok.injEq] at stepped
            subst stepped
            rw [List.append_assoc, List.cons_append]
            exact houter.append fun _ => .block opens h plays
          · simp [OpenBlock.step, same] at stepped

/-! ### Directives accepted one after another -/

/-- Directives that are accepted one after another, between the blocks open in front of them and
behind them. -/
inductive Accepted (registry : Registry) : List OpenBlock → List Call → List OpenBlock → Prop
  | nil (blocks : List OpenBlock) : Accepted registry blocks [] blocks
  | cons {blocks between blocks' : List OpenBlock} {call : Call} {calls : List Call}
    {code : List Char}
    (here : Segment.expandDirective registry blocks call.name call.args call.line =
      .ok (between, code)) (h : Accepted registry between calls blocks') :
    Accepted registry blocks (call :: calls) blocks'

namespace Accepted

theorem append_iff : Accepted registry blocks (calls ++ more) blocks' ↔
    ∃ between, Accepted registry blocks calls between ∧ Accepted registry between more blocks' := by
  induction calls generalizing blocks with
  | nil =>
      refine ⟨fun h => ⟨blocks, .nil blocks, h⟩, ?_⟩
      rintro ⟨between, first, second⟩
      cases first
      exact second
  | cons call calls ih =>
      constructor
      · rintro (_ | ⟨here, h⟩)
        obtain ⟨between, first, second⟩ := ih.mp h
        exact ⟨between, .cons here first, second⟩
      · rintro ⟨between, _ | ⟨here, first⟩, second⟩
        exact .cons here (ih.mpr ⟨between, first, second⟩)

theorem unique {blocks₁ blocks₂ : List OpenBlock} (h₁ : Accepted registry blocks calls blocks₁)
    (h₂ : Accepted registry blocks calls blocks₂) : blocks₁ = blocks₂ := by
  induction h₁ with
  | nil =>
      cases h₂
      rfl
  | cons here _ ih =>
      cases h₂ with
      | cons here' h₂ =>
          cases here.symm.trans here'
          exact ih h₂

theorem opens (h : Accepted registry blocks more blocks') (before : Opens registry calls blocks) :
    Opens registry (calls ++ more) blocks' := by
  induction h generalizing calls with
  | nil => simpa using before
  | @cons _ _ _ call more _ here _ ih =>
      obtain ⟨entry, known, stepped, -⟩ := Segment.expandDirective_ok here
      rw [← List.singleton_append, ← List.append_assoc]
      exact ih (before.step known stepped)

theorem accepts (h : Accepted registry blocks calls blocks') :
    ∀ call ∈ calls, ∃ code, registry.expand call.name call.args = .ok code := by
  induction h with
  | nil => exact fun _ hmem => absurd hmem List.not_mem_nil
  | @cons _ _ _ _ _ code here _ ih =>
      obtain ⟨entry, known, -, expanded⟩ := Segment.expandDirective_ok here
      refine List.forall_mem_cons.mpr ⟨⟨code, ?_⟩, ih⟩
      rw [Registry.expand, known]
      exact expanded

theorem cons_of_step {role : Role} (plays : call.Plays registry role)
    (accepts : ∃ code, registry.expand call.name call.args = .ok code)
    (stepped : OpenBlock.step blocks call.name role call.line = .ok between)
    (h : Accepted registry between calls blocks') :
      Accepted registry blocks (call :: calls) blocks' := by
  obtain ⟨entry, known, rfl⟩ := plays
  obtain ⟨code, expanded⟩ := accepts
  rw [Registry.expand, known] at expanded
  have here : Segment.expandDirective registry blocks call.name call.args call.line =
      .ok (between, code) := by
    simp only [Segment.expandDirective, known, stepped]
    simp only at expanded
    rw [expanded]
    rfl
  exact .cons here h

/-- Directives that nest are accepted in a block that they may continue, and leave what is open as
it was. -/
theorem of_wellNested {roles : List Role} (nested : WellNested within roles)
    (plays : List.Forall₂ (Plays registry) calls roles)
    (accepts : ∀ call ∈ calls, ∃ code, registry.expand call.name call.args = .ok code)
    (inside : ∀ group, within = some group → blocks.head?.map OpenBlock.group = some group) :
    Accepted registry blocks calls blocks := by
  induction nested generalizing calls blocks with
  | nil =>
      cases plays
      exact .nil blocks
  | inline _ ih =>
      cases plays with
      | cons first rest =>
          obtain ⟨here, later⟩ := List.forall_mem_cons.mp accepts
          exact cons_of_step first here rfl (ih rest later inside)
  | block group _ _ ihinside ih =>
      obtain ⟨opener, following, opens, playsRest, rfl⟩ := List.forall₂_cons_right_iff.mp plays
      have playsInside := List.forall₂_take_append _ _ _ playsRest
      obtain ⟨closer, behind, closes, playsBehind, cut⟩ :=
        List.forall₂_cons_right_iff.mp (List.forall₂_drop_append _ _ _ playsRest)
      rw [← List.take_append_drop _ following, cut] at accepts ⊢
      obtain ⟨opened, accepts⟩ := List.forall_mem_cons.mp accepts
      obtain ⟨acceptsInside, accepts⟩ := List.forall_mem_append.mp accepts
      obtain ⟨closed, acceptsBehind⟩ := List.forall_mem_cons.mp accepts
      refine cons_of_step opens opened rfl
        (append_iff.mpr ⟨_, ihinside playsInside acceptsInside ?_, ?_⟩)
      · exact fun _ same => same
      · refine cons_of_step closes closed ?_ (ih playsBehind acceptsBehind inside)
        simp [OpenBlock.step]
  | @continues group _ _ ih =>
      cases plays with
      | cons first rest =>
          obtain ⟨here, later⟩ := List.forall_mem_cons.mp accepts
          refine cons_of_step first here ?_ (ih rest later inside)
          cases blocks with
          | nil => exact absurd (inside group rfl) (by simp)
          | cons block outer =>
              have same : block.group = group := by simpa using inside group rfl
              simp [OpenBlock.step, same]

theorem iff_opens : Accepted registry [] calls blocks ↔ Opens registry calls blocks ∧
    ∀ call ∈ calls, ∃ code, registry.expand call.name call.args = .ok code := by
  refine ⟨fun h => ⟨h.opens (.none (.nil _ _)), h.accepts⟩, ?_⟩
  rintro ⟨opens, accepts⟩
  induction opens with
  | none h =>
      obtain ⟨roles, plays, nested⟩ := h
      exact of_wellNested nested plays accepts fun _ same => by cases same
  | block _ opens h ih =>
      obtain ⟨acceptsBefore, accepts⟩ := List.forall_mem_append.mp accepts
      obtain ⟨opened, acceptsInside⟩ := List.forall_mem_cons.mp accepts
      obtain ⟨roles, plays, nested⟩ := h
      refine append_iff.mpr ⟨_, ih acceptsBefore, cons_of_step opens opened rfl ?_⟩
      exact of_wellNested nested plays acceptsInside fun _ same => same

theorem nest_iff (h : Accepted registry [] calls blocks) : Nest registry none calls ↔
    blocks = [] := by
  constructor
  · intro nest
    exact h.unique (iff_opens.mpr ⟨.none nest, h.accepts⟩)
  · rintro rfl
    exact opens_nil_iff.mp (iff_opens.mp h).1

theorem head_of_leftOpen {opener : Call} (h : Accepted registry [] calls blocks)
    (left : LeftOpen registry calls opener group) :
    ∃ outer, blocks = { group, directive := opener.name, line := opener.line } :: outer := by
  obtain ⟨before, inside, rfl, opens, nest⟩ := left
  obtain ⟨between, first, -⟩ := append_iff.mp h
  have opened := Opens.block (iff_opens.mp first).1 opens nest
  exact ⟨between, h.unique (iff_opens.mpr ⟨opened, h.accepts⟩)⟩

theorem exists_leftOpen {block : OpenBlock} (h : Accepted registry [] calls (block :: outer)) :
    ∃ opener, LeftOpen registry calls opener block.group ∧
      block.directive = opener.name ∧ block.line = opener.line := by
  cases (iff_opens.mp h).1 with
  | block _ opens nest => exact ⟨_, ⟨_, _, rfl, opens, nest⟩, rfl, rfl⟩

theorem leftOpen_iff (h : Accepted registry [] calls blocks) :
    (∃ opener, LeftOpen registry calls opener group) ↔
      blocks.head?.map OpenBlock.group = some group := by
  constructor
  · rintro ⟨opener, left⟩
    obtain ⟨outer, rfl⟩ := h.head_of_leftOpen left
    rfl
  · intro head
    cases blocks with
    | nil => cases head
    | cons block outer =>
        obtain ⟨opener, left, -⟩ := h.exists_leftOpen
        cases head
        exact ⟨opener, left⟩

end Accepted

/-! ### The first fault -/

theorem expandDirective_error_iff : Segment.expandDirective registry blocks call.name call.args
      call.line = .error error ↔
    (registry.find? call.name = none ∧ CompileError.unknownDirective call.name = error) ∨
      ∃ entry, registry.find? call.name = some entry ∧
        (OpenBlock.step blocks call.name entry.role call.line = .error error ∨
          (∃ blocks', OpenBlock.step blocks call.name entry.role call.line = .ok blocks') ∧
            entry.expand call.args = .error error) := by
  unfold Segment.expandDirective
  cases registry.find? call.name with
  | none => simp
  | some entry =>
      cases stepped : OpenBlock.step blocks call.name entry.role call.line with
      | error => simp [stepped, bind, Except.bind]
      | ok => cases expanded : entry.expand call.args <;>
          simp [stepped, expanded, bind, Except.bind, pure, Except.pure]

theorem fault_iff (h : Accepted registry [] before blocks) : Fault registry before call error ↔
    Segment.expandDirective registry blocks call.name call.args call.line = .error error := by
  rw [expandDirective_error_iff]
  constructor
  · intro fault
    cases fault with
    | unknown unknown => exact .inl ⟨unknown, rfl⟩
    | noBlock known needs nest =>
        obtain rfl := h.nest_iff.mp nest
        exact .inr ⟨_, known, .inl (step_error_iff.mpr ⟨_, needs, by simp, rfl⟩)⟩
    | otherBlock known needs left other =>
        obtain ⟨outer, rfl⟩ := h.head_of_leftOpen left
        exact .inr ⟨_, known, .inl (step_error_iff.mpr ⟨_, needs, by simp [other], rfl⟩)⟩
    | refused known placed refused =>
        refine .inr ⟨_, known, .inr ⟨exists_step_iff.mpr fun group needs => ?_, refused⟩⟩
        exact h.leftOpen_iff.mp (placed group needs)
  · rintro (⟨unknown, rfl⟩ | ⟨entry, known, misplaced | ⟨stands, refused⟩⟩)
    · exact .unknown unknown
    · obtain ⟨group, needs, other, rfl⟩ := step_error_iff.mp misplaced
      cases blocks with
      | nil => exact .noBlock known needs (h.nest_iff.mpr rfl)
      | cons block outer =>
          obtain ⟨opener, left, directive, line⟩ := h.exists_leftOpen
          rw [OpenBlock.outOfPlace, directive, line]
          exact .otherBlock known needs left fun same => other (by simp [same])
    · exact .refused known
        (fun group needs => h.leftOpen_iff.mpr (exists_step_iff.mp stands group needs)) refused

theorem faultless_iff : Faultless registry calls ↔ ∃ blocks, Accepted registry [] calls blocks := by
  constructor
  · intro faultless
    induction calls using List.reverseRecOn with
    | nil => exact ⟨[], .nil []⟩
    | append_singleton calls call ih =>
        obtain ⟨blocks, accepted⟩ := ih fun before call' after split =>
          faultless before call' (after ++ [call]) (by rw [split]; simp)
        have noFault := faultless calls call [] rfl
        cases result : Segment.expandDirective registry blocks call.name call.args call.line with
        | error error => exact absurd ((fault_iff accepted).mpr result) (noFault error)
        | ok result' =>
            exact ⟨result'.1, Accepted.append_iff.mpr ⟨blocks, accepted, .cons result (.nil _)⟩⟩
  · rintro ⟨blocks, accepted⟩ before call after rfl error fault
    obtain ⟨between, first, here | ⟨here, -⟩⟩ := Accepted.append_iff.mp accepted
    cases here.symm.trans ((fault_iff first).mp fault)

/-! ### Expansion -/

theorem expandFrom_ok_iff {segments : List Segment} :
    (∃ code, Segment.expandFrom registry blocks segments = .ok code) ↔
      Accepted registry blocks (Segment.calls segments) [] := by
  induction segments generalizing blocks with
  | nil =>
      constructor
      · rintro ⟨code, expanded⟩
        obtain ⟨rfl, -⟩ := Segment.expandFrom_nil expanded
        exact .nil []
      · intro accepted
        cases accepted
        exact ⟨[], rfl⟩
  | cons segment rest ih =>
      cases segment with
      | verbatim text =>
          rw [Segment.calls, ← ih]
          constructor
          · rintro ⟨code, expanded⟩
            obtain ⟨later, found, -⟩ := Segment.expandFrom_verbatim expanded
            exact ⟨later, found⟩
          · rintro ⟨later, found⟩
            exact ⟨text ++ later, by rw [Segment.expandFrom_verbatim_eq, found]; rfl⟩
      | directive name args line =>
          rw [Segment.calls]
          constructor
          · rintro ⟨code, expanded⟩
            obtain ⟨between, emitted, later, here, found, -⟩ :=
              Segment.expandFrom_directive expanded
            exact .cons here (ih.mp ⟨later, found⟩)
          · rintro (_ | ⟨here, accepted⟩)
            obtain ⟨later, found⟩ := ih.mpr accepted
            rw [Segment.expandFrom_directive_eq, here]
            simp only [found]
            exact ⟨_, rfl⟩

theorem expandFrom_of_error {segments : List Segment}
    (first : Accepted registry blocks before between)
    (here : Segment.expandDirective registry between call.name call.args call.line = .error error)
    {after : List Call} (split : Segment.calls segments = before ++ call :: after) :
    Segment.expandFrom registry blocks segments = .error { line := call.line, error } := by
  induction segments generalizing blocks before with
  | nil => cases before <;> cases split
  | cons segment rest ih =>
      cases segment with
      | verbatim text =>
          rw [Segment.expandFrom_verbatim_eq, ih first split]
          rfl
      | directive name args line =>
          rw [Segment.expandFrom_directive_eq]
          cases first with
          | nil =>
              cases split
              rw [here]
          | cons earlier first =>
              obtain ⟨rfl, later⟩ := List.cons.inj split
              rw [earlier]
              simp only [ih first later]
              rfl

theorem expandFrom_of_open {segments : List Segment} {block : OpenBlock}
    (h : Accepted registry blocks (Segment.calls segments) (block :: outer)) :
    Segment.expandFrom registry blocks segments = .error
      { line := block.line, error := .unbalanced block.directive (.neverClosed block.line) } := by
  induction segments generalizing blocks with
  | nil =>
      cases h
      rfl
  | cons segment rest ih =>
      cases segment with
      | verbatim text =>
          rw [Segment.expandFrom_verbatim_eq, ih h]
          rfl
      | directive name args line =>
          rw [Segment.expandFrom_directive_eq]
          cases h with
          | cons here h =>
              rw [here]
              simp only [ih h]
              rfl

theorem rejection_of_expandFrom {segments : List Segment} {located : LocatedError}
    (first : Accepted registry [] before blocks)
    (h : Segment.expandFrom registry blocks segments = .error located) :
    Rejection registry (before ++ Segment.calls segments) located := by
  induction segments generalizing before blocks with
  | nil =>
      cases blocks with
      | nil => cases h
      | cons block outer =>
          cases h
          obtain ⟨opener, left, directive, line⟩ := first.exists_leftOpen
          rw [Segment.calls, List.append_nil, directive, line]
          exact .neverClosed (faultless_iff.mpr ⟨_, first⟩) left
  | cons segment rest ih =>
      cases segment with
      | verbatim text =>
          rw [Segment.expandFrom_verbatim_eq] at h
          cases found : Segment.expandFrom registry blocks rest with
          | ok later =>
              rw [found] at h
              cases h
          | error =>
              rw [found] at h
              cases h
              exact ih first found
      | directive name args line =>
          rw [Segment.expandFrom_directive_eq] at h
          cases here : Segment.expandDirective registry blocks name args line with
          | error error =>
              rw [here] at h
              cases h
              have refused : Fault registry before ⟨name, args, line⟩ error :=
                (fault_iff first).mpr here
              exact .fault rfl (faultless_iff.mpr ⟨_, first⟩) refused
          | ok result =>
              rw [here] at h
              cases found : Segment.expandFrom registry result.1 rest with
              | ok later =>
                  simp only [found] at h
                  cases h
              | error =>
                  simp only [found] at h
                  cases h
                  have one : Accepted registry blocks [⟨name, args, line⟩] result.1 :=
                    .cons here (.nil _)
                  have rejection := ih (Accepted.append_iff.mpr ⟨blocks, first, one⟩) found
                  rwa [List.append_assoc] at rejection

theorem expandFrom_error_iff {segments : List Segment} {located : LocatedError} :
    Segment.expandFrom registry [] segments = .error located ↔
      Rejection registry (Segment.calls segments) located := by
  refine ⟨rejection_of_expandFrom (.nil []), fun rejection => ?_⟩
  cases rejection with
  | fault split faultless fault =>
      obtain ⟨between, first⟩ := faultless_iff.mp faultless
      exact expandFrom_of_error first ((fault_iff first).mp fault) split
  | neverClosed faultless left =>
      obtain ⟨blocks, accepted⟩ := faultless_iff.mp faultless
      obtain ⟨outer, rfl⟩ := accepted.head_of_leftOpen left
      exact expandFrom_of_open accepted

end Call

/-- A source that scans expands if and only if its directives, with the iterations taken in that
stand without parentheses, are registered, their roles nest, and each is content with its arguments.
If it does not expand, the first directive with a fault says why and where, and if there is none,
the innermost block left open. A source that does not scan fails as its scan. -/
theorem expand_iff_nest (registry : Registry) (source : List Char) :
    match Segment.scan source with
    | .error error => expand registry source = .error error
    | .ok segments =>
      let calls := Segment.calls (Segment.takeBareIterations registry segments)
      ((∃ code, expand registry source = .ok code) ↔
        (∃ roles, List.Forall₂ (Call.Plays registry) calls roles ∧ WellNested none roles) ∧
          ∀ call ∈ calls, ∃ code, registry.expand call.name call.args = .ok code) ∧
      ∀ error, expand registry source = .error error ↔ Call.Rejection registry calls error := by
  cases scanned : Segment.scan source with
  | error error =>
      show expand registry source = .error error
      rw [expand, scanned]
      rfl
  | ok segments =>
      have expansion : expand registry source = Segment.expandFrom registry []
          (Segment.takeBareIterations registry segments) := by
        rw [expand, scanned]
        rfl
      simp only [expansion]
      refine ⟨?_, fun error => Call.expandFrom_error_iff⟩
      rw [Call.expandFrom_ok_iff, Call.Accepted.iff_opens]
      exact and_congr_left fun _ => Call.opens_nil_iff

example : expand Registry.builtin "@loop @simplemenu('m' as $i) @endloop @endsimplemenu".toList =
    .error { line := 1, error := .unbalanced "endloop" (.otherBlock "loop" "simplemenu" 1) } := by
  decide +kernel

end ThemeTemplates
