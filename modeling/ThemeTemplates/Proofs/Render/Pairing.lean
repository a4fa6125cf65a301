import ThemeTemplates.Proofs.Render.Discipline
import ThemeTemplates.Proofs.Source.Pairing

/-!
# Paired directives keep the loop stack

In libraries of plain templates the pairing that is checked when a source is expanded is all it
takes: no function of a loop ever finds another frame on top than its own.
-/

namespace ThemeTemplates

/-- A library of plain templates and the built-in directives. Its loader may fail as it likes, but
not with a misuse of the loop stack. -/
structure PlainLibrary (library : Library) : Prop where
  directives : library.directives = Registry.builtin
  sources : ∀ template source, library.loader.load template = .ok (some source) →
    PlainTemplate source.toList
  failures : ∀ template failure error, library.loader.load template = .error failure →
    failure ≠ .loopStack error

structure CodedLibrary (library : Library) : Prop where
  codes : ∀ template page, library.compile template = .ok page →
    ∃ outline, Outline.Codes OfLoops outline page.body

theorem CodedLibrary.tidy {library : Library} (h : CodedLibrary library) {template : String}
    {page : Page} (compiled : library.compile template = .ok page) : Tidy OfLoops page.body := by
  obtain ⟨_, codes⟩ := h.codes template page compiled
  exact codes.tidy not_ofLoops_blade_loop

namespace PlainLibrary

variable {library : Library} {template : String}

theorem codes_of_compile (h : PlainLibrary library) {page : Page}
    (compiled : library.compile template = .ok page) :
    ∃ outline, Outline.Codes OfLoops outline page.body := by
  obtain ⟨source?, loaded, rest⟩ := Except.bind_eq_ok_iff.mp compiled
  cases source? with
  | none => cases rest
  | some source =>
      obtain ⟨code, expanding, parsed⟩ := Except.bind_eq_ok_iff.mp rest
      have expanded := Except.mapError_eq_ok_iff.mp (Except.mapError_eq_ok_iff.mp expanding)
      rw [h.directives] at expanded
      exact codes_of_expand (h.sources _ _ (Except.mapError_eq_ok_iff.mp loaded)) expanded
        (Except.mapError_eq_ok_iff.mp parsed)

theorem coded (h : PlainLibrary library) : CodedLibrary library where
  codes := fun _ _ => h.codes_of_compile

theorem tidy_of_compile (h : PlainLibrary library) {page : Page}
    (compiled : library.compile template = .ok page) : Tidy OfLoops page.body :=
  h.coded.tidy compiled

theorem calm_of_compile (h : PlainLibrary library) {fault : Fault}
    (failed : library.compile template = .error fault) (strict : Prop) : fault.Calm strict := by
  rcases Except.bind_eq_error_iff.mp failed with loading | ⟨source?, -, rest⟩
  · obtain ⟨failure, loaded, rfl⟩ := Except.mapError_eq_error_iff.mp loading
    exact Fault.calm_carrying (fun _ error => h.failures _ _ error loaded) none
  · cases source? with
    | none =>
        cases rest
        exact Fault.calm_plain _ _
    | some source =>
        rcases Except.bind_eq_error_iff.mp rest with expanding | ⟨code, -, parsing⟩
        · obtain ⟨failure, compiling, rfl⟩ := Except.mapError_eq_error_iff.mp expanding
          obtain ⟨located, -, rfl⟩ := Except.mapError_eq_error_iff.mp compiling
          exact Fault.calm_carrying (fun _ _ => Failure.noConfusion) none
        · obtain ⟨error, -, rfl⟩ := Except.mapError_eq_error_iff.mp parsing
          exact Fault.calm_plain _ _

end PlainLibrary

namespace Render

variable {σ : Type}

/-- Asks that no failure is misuse of the loop stack, and keeps an invariant of the host. -/
def loopWatch (inv : σ → Prop) : Watch σ where
  strict := True
  tracked := False
  host := inv

theorem watched_loopWatch {render : Render σ} {inv : σ → Prop} (plain : PlainLibrary render.library)
    (visible : ∀ name ∈ render.host.functions, ¬ Token.IsHidden name)
    (keeps : render.host.Keeps True inv) : Watched (loopWatch inv) OfLoops render where
  hidesLoops := fun function hmem => ⟨function, hmem, rfl⟩
  hidesItem := fun followed => followed.elim
  functions := fun name hmem loops => visible name hmem loops.isHidden
  host := keeps
  pages := fun _ _ => plain.tidy_of_compile
  faults := fun _ _ failed => plain.calm_of_compile failed True

/-- A root render of a plain template ends with no loop open, or with a failure that is not misuse
of the loop stack. The same is true of every partial rendered on the way: a host keeps what it keeps
as long as no partial fails by misuse. -/
theorem root_keeps_loops {render : Render σ} (plain : PlainLibrary render.library)
    (visible : ∀ name ∈ render.host.functions, ¬ Token.IsHidden name) {inv : σ → Prop}
    (keeps : render.host.Keeps True inv) {template : String} {page : Page}
    (compiled : render.library.compile template = .ok page) (data : ViewData)
    {start : RenderState σ} (fresh : start.session = { currentItem := render.baseItem })
    (host : inv start.host) (cached : ∀ name page, (name, page) ∈ start.compiled →
      render.library.compile name = .ok page) :
    ∃ result stop, (render.root page data).run start = (result, stop) ∧ inv stop.host ∧
      ((∃ output, result = .ok output ∧ stop.session.loops.frames = []) ∨
        ∃ failure, result = .error failure ∧ ∀ error, failure ≠ .loopStack error) := by
  have hw := watched_loopWatch plain visible keeps
  have steady : Steady (loopWatch inv) OfLoops [] render.baseItem start := by
    refine ⟨⟨fun failure kept => ?_, host, fun name page hmem => ?_⟩, ?_, fun followed =>
      followed.elim⟩
    · rw [fresh] at kept
      cases kept
    · exact plain.tidy_of_compile (cached name page hmem)
    · rw [fresh]
      rfl
  have settles := printPage_settles hw (renderWithin_disciplined hw Session.depthLimit
    fun followed => followed.elim) (fun followed => followed.elim) (plain.tidy_of_compile compiled)
    (bindable_context data) start steady
  cases ran : (Evaluation.printPage
    (render.surroundings (render.renderWithin Session.depthLimit)) page
      (context data)).run.run start with
  | mk result stop =>
      simp only [ran] at settles
      cases result with
      | ok output =>
          obtain ⟨-, ended⟩ := settles
          have closed : stop.session.loops.verify LoopStack.empty.checkpoint = .ok () :=
            verify_of_frames_eq ended.frames
          have run : (render.root page data).run start = (.ok output, stop) := by
            simp only [root, StateT.run_bind, ran]
            change (StateT.run (get >>= _) stop : Id _) = _
            simp only [StateT.run_bind, StateT.run_get, pure_bind, closed, StateT.run_pure]
            rfl
          exact ⟨_, _, run, ended.sound.host, .inl ⟨output, rfl, ended.frames⟩⟩
      | error fault =>
          obtain ⟨calm, stranded⟩ := settles
          have calmly := calm_takeFailure stranded.sound calm page.template
          have run : (render.root page data).run start =
              (.error ((takeFailure page.template fault).run stop).1,
                ((takeFailure page.template fault).run stop).2) := by
            simp only [root, StateT.run_bind, ran]
            rfl
          exact ⟨_, _, run, stranded.sound.host, .inr ⟨_, rfl, calmly trivial⟩⟩

/-- A template whose loop renders a partial, and the partial, which has a loop of its own. -/
def nestedListing : Fields String :=
  [("list", "@loop($a as $x){{ x }}@partial('menu')@endloop"),
    ("partials.menu", "\x7b# @x #\x7d@simplemenu('m' as $e)@endsimplemenu")]

theorem plainTemplate_list :
    PlainTemplate "@loop($a as $x){{ x }}@partial('menu')@endloop".toList := by
  have scanned : Segment.scan "@loop($a as $x){{ x }}@partial('menu')@endloop".toList = .ok
      [.directive "loop" "($a as $x)".toList 1, .verbatim "{{ x }}".toList,
        .directive "partial" "('menu')".toList 1, .directive "endloop" [] 1] := by
    decide +kernel
  refine .of_scan scanned (fun text hmem => ?_) (by decide +kernel)
  obtain rfl : text = "{{ x }}".toList := by simpa using hmem
  exact @PlainText.echo " x ".toList [] (List.all_eq_true.mp rfl) (by decide +kernel) .nil

theorem plainTemplate_menu :
    PlainTemplate "\x7b# @x #\x7d@simplemenu('m' as $e)@endsimplemenu".toList := by
  have scanned : Segment.scan "\x7b# @x #\x7d@simplemenu('m' as $e)@endsimplemenu".toList = .ok
      [.verbatim "\x7b# @x #\x7d".toList, .directive "simplemenu" "('m' as $e)".toList 1,
        .directive "endsimplemenu" [] 1] := by
    decide +kernel
  refine .of_scan scanned (fun text hmem => ?_) (by decide +kernel)
  obtain rfl : text = "\x7b# @x #\x7d".toList := by simpa using hmem
  exact @PlainText.comment " @x #\x7d".toList " @x #\x7d".toList [] rfl .nil

theorem plainLibrary_nestedListing : PlainLibrary (ofTemplates nestedListing).library where
  directives := rfl
  sources := fun template source loaded => by
    have known := Value.mem_of_lookup_eq_some (Except.ok.inj loaded)
    simp only [nestedListing, List.mem_cons, Prod.mk.injEq, List.not_mem_nil, or_false] at known
    rcases known with ⟨rfl, rfl⟩ | ⟨rfl, rfl⟩
    · exact plainTemplate_list
    · exact plainTemplate_menu
  failures := fun _ _ _ failed => nomatch failed

theorem nestedListing_keeps_loops : ∃ page,
    (ofTemplates nestedListing).library.compile "list" = .ok page ∧
      ∃ result stop,
        ((ofTemplates nestedListing).root page [("a", .list [.int 1, .int 2])]).run
          { session := { currentItem := .null }, host := (), compiled := [] } = (result, stop) ∧
        True ∧
        ((∃ output, result = .ok output ∧ stop.session.loops.frames = []) ∨
          ∃ failure, result = .error failure ∧ ∀ error, failure ≠ .loopStack error) := by
  have compiles : ((ofTemplates nestedListing).library.compile "list").toOption.isSome = true := by
    decide +kernel
  cases compiled : (ofTemplates nestedListing).library.compile "list" with
  | error fault =>
      rw [compiled] at compiles
      cases compiles
  | ok page =>
      exact ⟨page, rfl, root_keeps_loops plainLibrary_nestedListing (fun _ hmem => nomatch hmem)
        (Host.keeps_true True _) compiled _ rfl trivial fun _ _ hmem => nomatch hmem⟩

end Render

end ThemeTemplates
