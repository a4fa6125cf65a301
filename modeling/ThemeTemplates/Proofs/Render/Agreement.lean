import ThemeTemplates.Proofs.Directive.Wording
import ThemeTemplates.Proofs.Render.Lawfulness
import ThemeTemplates.Proofs.Render.Rendering
import ThemeTemplates.Proofs.Render.Root

/-!
# Hosts see what templates see

A root render comes to what the law of its loops says, whatever its host does with what it sees.
Under the law a host is shown the loops around the code that asks it, and the item that the law
keeps: that of the start, of the turn of a `@loop`, or what was set last.
-/

namespace ThemeTemplates

open Evaluation

variable {σ : Type}

namespace Render

variable {library : Library} {levels : Nat} {frames : List LoopFrame} {enclosing : List Turn}
  {render : Render σ} {renderer : Renderer σ} {inner? : Option (LawfulRenderer σ)}
  {s : RenderState σ} {r : Course σ}

theorem simple_start {given : Fields Value} (blocks : Fields Block)
    (hgiven : ∀ name value, (name, value) ∈ given → value.Bindable OfLoops name) :
    Simple { scope := { given }, blocks } := by
  refine ⟨⟨fun frame hmem => ?_, hgiven⟩, rfl⟩
  rw [List.mem_singleton.mp hmem]
  exact ⟨by simp, by simp⟩

theorem printPage_mirrors (visible : ∀ name ∈ render.host.functions, ¬ Token.IsHidden name)
    (obeys : Obeys library levels renderer inner?) (defaults : render.PlainDefaults) {page : Page}
    {outline : Outline} (codes : Outline.Codes OfLoops outline page.body) {given : Fields Value}
    (hgiven : ∀ name value, (name, value) ∈ given → value.Bindable OfLoops name) :
    Mirrors (lawMirror library levels frames) (Inside library levels frames enclosing { given })
      (printPage (render.surroundings renderer) page given)
      (render.lawfulPage inner? enclosing page given) (fun _ => True)
      (Same fun _ => Reflects library levels frames) := by
  obtain ⟨deeper, positive⟩ : ∃ deeper, levelLimit = deeper + 1 := ⟨9999, rfl⟩
  have runs : ∀ running : Running (RenderState σ),
      running.surroundings = render.surroundings renderer →
      RunsBy library levels running (render.lawfulSurroundings inner?) outline page.body :=
    fun running same => runsBy_of_codes levels visible obeys defaults same codes
  unfold printPage lawfulPage
  simp only [positive, runWithin, codes.ofStatements_eq, bind_assoc]
  refine Mirrors.bindSame (runs _ rfl frames enclosing _ (simple_start page.blocks hgiven))
    fun stop hstop => ?_
  rw [hstop.alone]
  exact Mirrors.pure trivial fun _ _ h => ⟨rfl, h.reflects⟩

variable (render) in
theorem run_fetch (template : String)
    (cached : ∀ name page, (name, page) ∈ s.compiled → render.library.compile name = .ok page) :
    ∃ compiled, (render.fetch template).run.run s =
        (render.library.compile template, { s with compiled }) ∧
      ∀ name page, (name, page) ∈ compiled → render.library.compile name = .ok page := by
  have run : (render.fetch template).run.run s =
      ((render.library.fetch s.compiled template).1,
        { s with compiled := (render.library.fetch s.compiled template).2 }) := rfl
  obtain ⟨same, kept⟩ := fetch_of_cached cached template
  exact ⟨_, by rw [run, same], kept⟩

theorem renderWithin_obeys (coded : CodedLibrary render.library)
    (visible : ∀ name ∈ render.host.functions, ¬ Token.IsHidden name)
    (defaults : render.PlainDefaults) (levels : Nat) :
    Obeys render.library levels (render.renderWithin levels) (render.lawfulWithin levels) := by
  induction levels with
  | zero => exact .none
  | succ levels ih =>
      refine .some (fun enclosing template data => ?_)
        fun frames enclosing template data s r handed stands h => ?_
      · cases compiled : render.library.compile template with
        | error fault => exact Meets.throw fun r lost => ⟨fault.calm_false, lost⟩
        | ok page =>
            obtain ⟨outline, codes⟩ := coded.codes _ _ compiled
            have prints : Mirrors (lawMirror render.library levels [])
                (Inside render.library levels [] enclosing { given := context data }) _ _ _ _ :=
              printPage_mirrors visible ih defaults codes (bindable_context data)
            exact prints.loses
      · obtain ⟨kept, fetched, cached⟩ := run_fetch render template h.cached
        have begun : Reflects render.library levels frames { s with compiled := kept } r :=
          ⟨h.frames, h.item, h.failure, h.room, h.host, cached⟩
        rw [renderWithin, run_bind, fetched]
        cases compiled : render.library.compile template with
        | error fault => exact .fault begun.strays
        | ok page =>
            obtain ⟨outline, codes⟩ := coded.codes _ _ compiled
            exact (printPage_mirrors visible ih defaults codes (bindable_context data)).follows
              _ _ ⟨handed.lawful, stands, begun⟩

/-- A root render follows the law of its loops where the pages of its library have outlines. -/
theorem root_follows (coded : CodedLibrary render.library)
    (visible : ∀ name ∈ render.host.functions, ¬ Token.IsHidden name)
    (defaults : render.PlainDefaults) {template : String} {page : Page}
    (compiled : render.library.compile template = .ok page) {data : ViewData}
    (ordinary : Ordinary data) {start : RenderState σ}
    (fresh : start.session = { currentItem := render.baseItem })
    (cached : ∀ name page, (name, page) ∈ start.compiled → render.library.compile name = .ok page)
    {result : Except Failure String} {course : Course σ}
    (ran : (render.lawful page data).run
      { currentItem := render.baseItem, host := start.host } = (result, course))
    (given : ∀ explicit ∈ course.given, Ordinary explicit) :
    ∃ stop, (render.root page data).run start = (result, stop) ∧ stop.host = course.host := by
  obtain ⟨outline, codes⟩ := coded.codes _ _ compiled
  have reflects : Reflects render.library Session.depthLimit [] start
      { currentItem := render.baseItem, host := start.host } :=
    ⟨by rw [fresh]; rfl, by rw [fresh], by rw [fresh], by rw [fresh]; rfl, rfl, cached⟩
  have ended := (printPage_mirrors visible
    (renderWithin_obeys coded visible defaults Session.depthLimit) defaults codes
    (bindable_context data)).follows start _ ⟨ordinary.handed.lawful, .nil, reflects⟩
  rw [lawful, Course.run_settle] at ran
  change (lawMirror _ _ _).Ends _ _ _ ((render.lawfulPage (render.lawfulWithin 32) [] page
    (context data)).run.run _) at ended
  generalize first : (printPage (render.surroundings (render.renderWithin Session.depthLimit)) page
    (context data)).run.run start = outcome at ended
  generalize (render.lawfulPage (render.lawfulWithin 32) [] page (context data)).run.run _ =
    lawfully at ended ran
  have tame : ¬ Lost lawfully.2 := by
    rintro ⟨explicit, hmem, unruly⟩
    refine unruly (given explicit ?_)
    rwa [← Course.given_settled page.template, ran] at hmem
  cases ended with
  | value kept related =>
      obtain ⟨rfl, related⟩ := related
      cases ran
      refine ⟨_, ?_, related.host.symm⟩
      rw [root_of_output first, verify_of_frames_eq related.frames]
      rfl
  | @fault fault stop _ related =>
      obtain ⟨opened, related⟩ := related
      cases ran
      refine ⟨((takeFailure page.template fault).run stop).2, ?_, related.host.symm⟩
      rw [root_of_fault first]
      exact Prod.ext (congrArg (fun kept => Except.error (Option.getD kept _)) related.failure.symm)
        rfl
  | lostValue kept lost | lostFault lost => exact absurd lost tame

end Render

/-! ### Engines -/

namespace Engine

open Render

variable {engine : Engine σ} {template : String} {data given : ViewData} {view : Option String}

theorem lawful_of_fault {fault : Fault} (failed : engine.library.compile template = .error fault) :
    engine.lawful template data view = (.error (Failure.ofFault fault template),
      { currentItem := engine.host.currentPost engine.hostState, host := engine.hostState }) := by
  unfold lawful
  rw [failed]

theorem lawful_of_refused {page : Page} {failure : Failure}
    (compiles : engine.library.compile template = .ok page)
    (refused : engine.rootData template data = .error failure) :
    engine.lawful template data view = (.error failure,
      { currentItem := engine.host.currentPost engine.hostState, host := engine.hostState }) := by
  unfold lawful
  rw [compiles, refused]

theorem lawful_of_rootData {page : Page} (view : Option String)
    (compiles : engine.library.compile template = .ok page)
    (resolved : engine.rootData template data = .ok given) :
    engine.lawful template data view = ((engine.rendering view).lawful page given).run
      { currentItem := engine.host.currentPost engine.hostState, host := engine.hostState } := by
  unfold lawful rendering
  rw [compiles, resolved]

theorem ordinary_rootData
    (defaults : ∀ template layer, engine.defaults template = .ok layer → Ordinary layer)
    (ordinary : Ordinary data) (resolved : engine.rootData template data = .ok given) :
    Ordinary given := by
  obtain ⟨merged, merging, rest⟩ := Except.bind_eq_ok_iff.mp resolved
  obtain ⟨layer, supplied, same⟩ := Except.bind_eq_ok_iff.mp merging
  cases same
  have merged : Ordinary (Fields.overlay layer data) := by
    intro field hmem
    rcases Fields.mem_overlay hmem with hmem | hmem
    · exact ordinary field hmem
    · exact defaults _ _ (Except.mapError_eq_ok_iff.mp supplied) field hmem
  split at rest
  · cases rest
    exact merged
  · cases rest
    intro field hmem
    rcases Fields.mem_insert hmem with rfl | hmem
    · have shown : "post" ≠ Turn.loopVariable ∧ ¬ Token.IsHidden "post" :=
        ⟨by decide, by unfold Token.IsHidden; decide⟩
      exact shown
    · exact merged field hmem

section

variable (cached : ∀ name page, (name, page) ∈ engine.compiled →
    engine.library.compile name = .ok page)
  (visible : ∀ name ∈ engine.host.functions, ¬ Token.IsHidden name)
  (defaults : ∀ template layer, engine.defaults template = .ok layer → Ordinary layer)
  (template) (ordinary : Ordinary data) (view)
  (tame : ∀ explicit ∈ (engine.lawful template data view).2.given, Ordinary explicit)

include cached visible defaults ordinary tame

/-- A root render follows the law where the pages of the library have outlines. -/
theorem renderRoot_follows (coded : CodedLibrary engine.library) :
    (engine.renderRoot template data view).1 = (engine.lawful template data view).1 ∧
      (engine.renderRoot template data view).2.hostState =
        (engine.lawful template data view).2.host := by
  obtain ⟨compiled, fetched, valid⟩ := fetch_refresh cached template
  cases compiles : engine.library.compile template with
  | error fault =>
      rw [compiles] at fetched
      have rendered : engine.renderRoot template data view =
          (.error (Failure.ofFault fault template), { engine with compiled }) := by
        simp only [renderRoot, fetched]
        rfl
      rw [rendered, lawful_of_fault compiles]
      exact ⟨rfl, rfl⟩
  | ok page =>
      rw [compiles] at fetched
      cases resolved : engine.rootData template data with
      | error failure =>
          have again : ({ engine with compiled } : Engine σ).rootData template data =
              .error failure :=
            resolved
          have rendered : engine.renderRoot template data view =
              (.error failure, { engine with compiled }) := by
            simp only [renderRoot, fetched, again]
            rfl
          rw [rendered, lawful_of_refused compiles resolved]
          exact ⟨rfl, rfl⟩
      | ok given =>
          have lawful := lawful_of_rootData view compiles resolved
          have library : CodedLibrary (engine.rendering view).library := coded
          have layers : (engine.rendering view).PlainDefaults := defaults
          have fresh : (engine.beginning compiled).session =
            { currentItem := (engine.rendering view).baseItem } := rfl
          obtain ⟨stop, ran, host⟩ := root_follows library visible layers compiles
            (ordinary_rootData defaults ordinary resolved) fresh valid lawful.symm tame
          rw [renderRoot_of_run fetched resolved ran, host]
          exact ⟨rfl, rfl⟩

/-- A root render comes to what the law says, and leaves its host with what the law says, whatever
the host makes of what it is shown; unless some partial is given data under the name of the variable
of the loops. What a host is shown goes together: it finds in that variable the metadata of the
innermost loop, as deep as loops are open, beside the current item. The directives of the library
open and close the loops of the law and set its current item. -/
theorem renderRoot_eq_lawful (plain : PlainLibrary engine.library) :
    (engine.renderRoot template data view).1 = (engine.lawful template data view).1 ∧
      (engine.renderRoot template data view).2.hostState =
        (engine.lawful template data view).2.host ∧
      (∀ (course : Course σ) (asking : String) (enclosing : List Turn)
        (data? : String → Option Data),
        let shown := course.view asking view enclosing data?
        shown.find? Turn.loopVariable = shown.loop.map LoopMetadata.json ∧
          shown.loopDepth = enclosing.length ∧ shown.currentItem = course.currentItem) ∧
      engine.library.directives.Loops := by
  obtain ⟨result, host⟩ :=
    renderRoot_follows template view cached visible defaults ordinary tame plain.coded
  refine ⟨result, host, fun _ _ _ _ => ⟨by simp [Course.view], rfl, rfl⟩, ?_⟩
  rw [plain.directives]
  exact Builtin.loops_builtin

end

/-! ### A host that takes notes -/

def tame (ledger : List ViewData) : Bool :=
  ledger.all fun data => data.all fun field =>
    field.1 != Turn.loopVariable && !("__".toList.isPrefixOf field.1.toList)

theorem ordinary_of_tame {ledger : List ViewData} (h : tame ledger = true) :
    ∀ data ∈ ledger, Ordinary data := by
  intro data hdata field hfield
  have plain := List.all_eq_true.mp (List.all_eq_true.mp h data hdata) field hfield
  rw [Bool.and_eq_true, bne_iff_ne, Bool.not_eq_true'] at plain
  refine ⟨plain.1, fun hidden => ?_⟩
  have starts : "__".toList.isPrefixOf field.1.toList = true :=
    List.isPrefixOf_iff_prefix.mpr hidden
  rw [plain.2] at starts
  cases starts

/-- A loop with a partial in it, between directives that set the current item. -/
def notedList : String :=
  "\x7b\x7b note() \x7d\x7d@setpostdata($b)\x7b\x7b note() \x7d\x7d@loop($a as $x)" ++
    "\x7b\x7b note() \x7d\x7d@partial('menu')@endloop\x7b\x7b note() \x7d\x7d" ++
    "@resetpostdata\x7b\x7b note() \x7d\x7d"

def notedMenu : String :=
  "@simplemenu(k as $e)\x7b\x7b note() \x7d\x7d@endsimplemenu"

def notedListing : Fields String :=
  [("list", notedList), ("partials.menu", notedMenu)]

/-- What a host notes of a render: the text of the current item, how many loops are open, and the
iteration that the variable of the loops has. -/
structure Note where
  item : Option String
  loopDepth : Nat
  iteration : Option Int
deriving DecidableEq

def Note.of (seen : RenderView) : Note where
  item := seen.currentItem.text?
  loopDepth := seen.loopDepth
  iteration := (seen.find? Turn.loopVariable).bind fun loop =>
    match loop.field? "iteration" with
    | some (.int n) => some n
    | _ => none

/-- An engine whose host notes what it sees whenever its function is called. -/
def notingEngine : Engine (List Note) where
  library := (ofTemplates notedListing).library
  host :=
    { navMenu := fun _ => .answer (.list [.text "entry"])
      currentPost := fun _ => .text "post"
      functions := ["note"]
      call := fun _ _ => .look fun seen => .readState fun notes =>
        .writeState (notes ++ [.of seen]) (.answer (.text ".")) }
  hostState := []

def notedData : ViewData :=
  [("a", .list [.text "x", .text "y"]), ("b", .text "set")]

theorem plainTemplate_notedList : PlainTemplate notedList.toList := by
  have scanned : Segment.scan notedList.toList = .ok
      [.verbatim "\x7b\x7b note() \x7d\x7d".toList, .directive "setpostdata" "($b)".toList 1,
        .verbatim "\x7b\x7b note() \x7d\x7d".toList, .directive "loop" "($a as $x)".toList 1,
        .verbatim "\x7b\x7b note() \x7d\x7d".toList, .directive "partial" "('menu')".toList 1,
        .directive "endloop" [] 1, .verbatim "\x7b\x7b note() \x7d\x7d".toList,
        .directive "resetpostdata" [] 1, .verbatim "\x7b\x7b note() \x7d\x7d".toList] := by
    decide +kernel
  refine .of_scan scanned (fun text hmem => ?_) (by decide +kernel)
  obtain rfl : text = "\x7b\x7b note() \x7d\x7d".toList := by simpa using hmem
  exact @PlainText.echo " note() ".toList [] (List.all_eq_true.mp rfl) (by decide +kernel) .nil

theorem plainTemplate_notedMenu : PlainTemplate notedMenu.toList := by
  have scanned : Segment.scan notedMenu.toList = .ok
      [.directive "simplemenu" "(k as $e)".toList 1,
        .verbatim "\x7b\x7b note() \x7d\x7d".toList, .directive "endsimplemenu" [] 1] := by
    decide +kernel
  refine .of_scan scanned (fun text hmem => ?_) (by decide +kernel)
  obtain rfl : text = "\x7b\x7b note() \x7d\x7d".toList := by simpa using hmem
  exact @PlainText.echo " note() ".toList [] (List.all_eq_true.mp rfl) (by decide +kernel) .nil

theorem plainLibrary_notedListing : PlainLibrary notingEngine.library where
  directives := rfl
  sources := fun template source loaded => by
    have known := Value.mem_of_lookup_eq_some (Except.ok.inj loaded)
    simp only [notedListing, List.mem_cons, Prod.mk.injEq, List.not_mem_nil, or_false] at known
    rcases known with ⟨rfl, rfl⟩ | ⟨rfl, rfl⟩
    · exact plainTemplate_notedList
    · exact plainTemplate_notedMenu
  failures := fun _ _ _ failed => nomatch failed

theorem notingEngine_eq_lawful :
    (notingEngine.renderRoot "list" notedData none).1.toOption = some "........" ∧
      (notingEngine.renderRoot "list" notedData none).2.hostState =
        [⟨some "post", 0, none⟩, ⟨some "set", 0, none⟩, ⟨some "x", 1, some 1⟩,
          ⟨some "x", 2, some 1⟩, ⟨some "y", 1, some 2⟩, ⟨some "y", 2, some 1⟩,
          ⟨some "set", 0, none⟩, ⟨some "post", 0, none⟩] := by
  have tamed : tame [notedData] = true := by decide +kernel
  have lawful : tame (notingEngine.lawful "list" notedData none).2.given = true ∧
      (notingEngine.lawful "list" notedData none).1.toOption = some "........" ∧
      (notingEngine.lawful "list" notedData none).2.host =
        [⟨some "post", 0, none⟩, ⟨some "set", 0, none⟩, ⟨some "x", 1, some 1⟩,
          ⟨some "x", 2, some 1⟩, ⟨some "y", 1, some 2⟩, ⟨some "y", 2, some 1⟩,
          ⟨some "set", 0, none⟩, ⟨some "post", 0, none⟩] := by
    decide +kernel
  have visible : ∀ name ∈ notingEngine.host.functions, ¬ Token.IsHidden name := by
    intro name hmem
    obtain rfl : name = "note" := by simpa [notingEngine] using hmem
    unfold Token.IsHidden
    decide +kernel
  have defaults : ∀ template layer, notingEngine.defaults template = .ok layer →
      Ordinary layer := by
    intro _ _ supplied
    cases supplied
    exact .nil
  have cached : ∀ name page, (name, page) ∈ notingEngine.compiled →
      notingEngine.library.compile name = .ok page := fun _ _ hmem => nomatch hmem
  obtain ⟨result, host, -⟩ := renderRoot_eq_lawful "list" none cached visible defaults
    (ordinary_of_tame tamed _ List.mem_cons_self)
    (ordinary_of_tame lawful.1) plainLibrary_notedListing
  rw [result, host]
  exact lawful.2

end Engine

end ThemeTemplates
