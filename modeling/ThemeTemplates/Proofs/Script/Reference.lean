import ThemeTemplates.Proofs.Render.Agreement
import ThemeTemplates.Proofs.Script.Correspondence
import ThemeTemplates.Proofs.Script.Depth
import ThemeTemplates.Proofs.Script.Expansion

/-!
# Renders of scripts

A library of sources that are written as scripts renders as the scripts are interpreted: what is
printed, where a render fails, and what the host is left as.
-/

namespace ThemeTemplates

open Evaluation Render

/-! ### Libraries of scripts -/

/-- Whether a source is written as a script has it. -/
structure Script.Spells (script : Script) (source : String) : Prop where
  ordinary : script.isOrdinary = true
  scanned : Segment.scan source.toList = .ok (script.segments 1)

def Script.depthFault (template : String) (line : Nat) : Fault :=
  Fault.ofPageError template (Parse.depthError (shiftedLine 0 line))

def Script.checked (template : String) (script : Script) : Except Fault Script :=
  match script.tooDeep? Script.heightLimit 1 with
  | some line => .error (depthFault template line)
  | none => .ok script

def Library.script (library : Library) (read : String → Script) (template : String) :
    Except Fault Script := do
  let source? ← (library.loader.load template).mapError fun failure => .carrying failure none
  match source? with
  | none => throw (.plain .missingTemplate none)
  | some source => (read source).checked template

/-- A library of scripts and the built-in directives. -/
structure ScriptLibrary (library : Library) (read : String → Script) : Prop where
  directives : library.directives = Registry.builtin
  sources : ∀ template source, library.loader.load template = .ok (some source) →
    (read source).Spells source

namespace ScriptLibrary

variable {library : Library} {read : String → Script}

theorem compile_of_load (h : ScriptLibrary library read) {template source : String}
    (loaded : library.loader.load template = .ok (some source)) :
    library.compile template =
      (Page.parse template (read source).code).mapError (Fault.ofPageError template) := by
  obtain ⟨ordinary, scanned⟩ := h.sources template source loaded
  have expanded : library.expandSource template source = .ok (read source).code := by
    rw [Library.expandSource, h.directives, Script.expand_eq_code ordinary scanned]
    rfl
  unfold Library.compile
  rw [loaded]
  show (do
    let code ← (library.expandSource template source).mapError fun failure =>
      Fault.carrying failure none
    (Page.parse template code).mapError (Fault.ofPageError template)) = _
  rw [expanded]
  rfl

/-- A template compiles to a page that codes what its script says, or both fail with one fault. -/
theorem compile (h : ScriptLibrary library read) (template : String) :
    (∃ fault, library.script read template = .error fault ∧
      library.compile template = .error fault) ∨
    ∃ script page, library.script read template = .ok script ∧ script.isOrdinary = true ∧
      script.height ≤ Script.heightLimit ∧ library.compile template = .ok page ∧
      page.template = template ∧ Outline.Codes OfLoops (script.outline 1) page.body := by
  unfold Library.script
  cases loaded : library.loader.load template with
  | error failure => exact .inl ⟨_, rfl, by simp only [Library.compile, loaded]; rfl⟩
  | ok source? =>
      cases source? with
      | none => exact .inl ⟨_, rfl, by simp only [Library.compile, loaded]; rfl⟩
      | some source =>
          have ordinary := (h.sources template source loaded).ordinary
          rw [h.compile_of_load loaded]
          show (∃ fault, (read source).checked template = .error fault ∧ _) ∨
            ∃ script page, (read source).checked template = .ok script ∧ _
          unfold Script.checked
          cases deep : (read source).tooDeep? Script.heightLimit 1 with
          | some line =>
              rw [Script.parse_tooDeep ordinary deep]
              exact .inl ⟨_, rfl, rfl⟩
          | none =>
              have shallow := Script.tooDeep?_eq_none_iff.mp deep
              obtain ⟨page, parsed, same, codes⟩ := Script.parse_code ordinary shallow template
              rw [parsed]
              exact .inr ⟨read source, page, rfl, ordinary, shallow, rfl, same, codes⟩

theorem coded (h : ScriptLibrary library read) : CodedLibrary library where
  codes := by
    intro template page compiled
    rcases h.compile template with ⟨fault, -, failed⟩ | ⟨script, page', -, -, -, found, -, codes⟩
    · rw [failed] at compiled
      cases compiled
    · rw [found] at compiled
      cases compiled
      exact ⟨_, codes⟩

end ScriptLibrary

/-! ### Root renders -/

namespace Script

variable {σ : Type} {render : Render σ} {read : String → Script} {script : Script} {page : Page}
  {data : ViewData} {given : Layer}

theorem lawfulPage_mirrors {law? : Option (LawfulRenderer σ)} {inner? : Option (Interpreter σ)}
    (interprets : Interprets law? inner?) (defaults : render.PlainDefaults)
    (visible : ∀ name ∈ render.host.functions, ¬ Token.IsHidden name)
    (menus : ∀ menu, (render.host.navMenu menu).GivesOrdinary) (h : script.isOrdinary = true)
    (shallow : script.height ≤ heightLimit)
    (codes : Outline.Codes OfLoops (script.outline 1) page.body) {enclosing : List Turn}
    (handed : Handed enclosing data)
    (found : ∀ name, Scope.find? { given := context data } name = given name) :
    Mirrors (directMirror σ) Alike (render.lawfulPage law? enclosing page (context data))
      (script.interpret render inner? page.template 1 ⟨enclosing, 0, given⟩) (fun _ => True)
      (Same fun _ => Alike) := by
  have begun : Around.Held ⟨enclosing, 0, given⟩
      (Progress.scope { scope := { given := context data }, blocks := page.blocks }) :=
    .start handed found
  have few : 0 + script.height ≤ heightLimit := by rwa [Nat.zero_add]
  have runs := interpret_mirrors interprets defaults visible menus page.template h 1 begun few
  unfold lawfulPage
  rw [codes.ofStatements_eq]
  exact mirrors_take runs fun output => by simp [progressAfter, Progress.print]

section

variable (library : ScriptLibrary render.library read) (defaults : render.PlainDefaults)
  (visible : ∀ name ∈ render.host.functions, ¬ Token.IsHidden name)
  (menus : ∀ menu, (render.host.navMenu menu).GivesOrdinary)

include library defaults visible menus

theorem interprets_within (levels : Nat) :
    Interprets (render.lawfulWithin levels)
      (interpretWithin render (render.library.script read) levels) := by
  induction levels with
  | zero => exact .none
  | succ levels ih =>
      refine .some fun enclosing template data given handed found => ?_
      rcases library.compile template with ⟨fault, missing, failed⟩ |
        ⟨script, page, written, ordinary, shallow, compiled, same, codes⟩
      · rw [missing, failed]
        exact mirrors_of_ends fun _ _ alike => .fault alike
      · rw [written, compiled, ← same]
        exact lawfulPage_mirrors ih defaults visible menus ordinary shallow codes handed found

/-- A root render of a script comes by the law to what the script is interpreted as. -/
theorem lawful_interprets (ordinary : script.isOrdinary = true)
    (shallow : script.height ≤ heightLimit)
    (codes : Outline.Codes OfLoops (script.outline 1) page.body) (hdata : Ordinary data)
    (found : ∀ name, Scope.find? { given := context data } name = given name) {begun : Course σ}
    (fresh : begun.given = []) :
    Agree ((render.lawful page data).run begun)
      ((interpretRoot render (render.library.script read) page.template script given).run
        begun) := by
  have started : Alike begun begun := ⟨rfl, rfl, rfl, by simp [fresh]⟩
  have mirrors := lawfulPage_mirrors (interprets_within library defaults visible menus 32) defaults
    visible menus ordinary shallow codes hdata.handed found
  exact agree_settle mirrors page.template started

end

end Script

/-! ### Engines -/

namespace Engine

variable {σ : Type}

/-- A root render as the script of its template is interpreted: what it comes to, and the state that
the host is left in. The template has the data it is given before its defaults, and these before the
current post of the host, which is the current item at the start. -/
def interpret (engine : Engine σ) (read : String → Script) (template : String) (data : ViewData)
    (view : Option String) : Except Failure String × σ :=
  match engine.library.script read template, engine.defaults template with
  | .error fault, _ => (.error (Failure.ofFault fault template), engine.hostState)
  | .ok _, .error error => (.error (.collaborator "defaults" error), engine.hostState)
  | .ok script, .ok defaults =>
    let post := engine.host.currentPost engine.hostState
    let given := Script.starting [.ofSettings data, .ofRecord defaults, .ofRecord [("post", post)]]
    let interpreted := Script.interpretRoot (engine.rendering view) (engine.library.script read)
      template script given
    let (result, course) := interpreted.run { currentItem := post, host := engine.hostState }
    (result, course.host)

section

variable {engine : Engine σ} {read : String → Script} {template : String} {data : ViewData}
  {view : Option String}

theorem find?_starting {given defaults : ViewData}
    (settings : ∀ name,
      (given.find? name).map Value.ofData = Layer.nearest? (engine.layers data defaults) name)
    (name : String) :
    Scope.find? { given := context given } name = Script.starting
      (engine.layers data defaults) name := by
  rw [Script.starting, Function.update_apply]
  split
  · next same => rw [same, Scope.find?_start, find?_context_session]
  · next apart => rw [find?_context apart, settings]

/-- By the law a root render comes to what the script of its template is interpreted as. -/
theorem lawful_eq_interpret (template : String) (view : Option String)
    (scripts : ScriptLibrary engine.library read)
    (visible : ∀ name ∈ engine.host.functions, ¬ Token.IsHidden name)
    (defaults : ∀ template layer, engine.defaults template = .ok layer → Ordinary layer)
    (menus : ∀ menu, (engine.host.navMenu menu).GivesOrdinary) (ordinary : Ordinary data) :
    ((engine.lawful template data view).1, (engine.lawful template data view).2.host) =
        engine.interpret read template data view ∧
      ∀ explicit ∈ (engine.lawful template data view).2.given, Ordinary explicit := by
  unfold interpret
  rcases scripts.compile template with ⟨fault, missing, failed⟩ |
    ⟨script, page, written, plain, shallow, compiles, same, codes⟩
  · rw [lawful_of_fault failed, missing]
    exact ⟨rfl, fun _ hmem => nomatch hmem⟩
  · rw [written]
    cases resolved : engine.rootData template data with
    | error failure =>
        obtain ⟨error, supplied, rfl⟩ := rootData_error resolved
        rw [lawful_of_refused compiles resolved, supplied]
        exact ⟨rfl, fun _ hmem => nomatch hmem⟩
    | ok given =>
        obtain ⟨layer, supplied, settings⟩ := find?_rootData resolved
        have library : ScriptLibrary (engine.rendering view).library read := scripts
        have layers : (engine.rendering view).PlainDefaults := defaults
        let begun : Course σ :=
          { currentItem := engine.host.currentPost engine.hostState, host := engine.hostState }
        obtain ⟨result, alike⟩ := Script.lawful_interprets library layers visible menus plain
          shallow codes (ordinary_rootData defaults ordinary resolved) (find?_starting settings)
          (show begun.given = [] from rfl)
        rw [lawful_of_rootData view compiles resolved, supplied]
        rw [same] at result alike
        exact ⟨Prod.ext result alike.host, alike.ordinary⟩

end

/-- What a root render comes to, and what it leaves its host with, is what the script of its
template is interpreted as. -/
theorem renderRoot_eq_interpret {engine : Engine σ} {read : String → Script}
    (scripts : ScriptLibrary engine.library read)
    (cached : ∀ name page, (name, page) ∈ engine.compiled → engine.library.compile name = .ok page)
    (visible : ∀ name ∈ engine.host.functions, ¬ Token.IsHidden name)
    (defaults : ∀ template layer, engine.defaults template = .ok layer → Ordinary layer)
    (menus : ∀ menu, (engine.host.navMenu menu).GivesOrdinary) (template : String) {data : ViewData}
    (ordinary : Ordinary data) (view : Option String) :
    ((engine.renderRoot template data view).1, (engine.renderRoot template data view).2.hostState) =
      engine.interpret read template data view := by
  obtain ⟨interpreted, given⟩ :=
    lawful_eq_interpret template view scripts visible defaults menus ordinary
  obtain ⟨result, host⟩ :=
    renderRoot_follows template view cached visible defaults ordinary given scripts.coded
  rw [result, host, interpreted]

/-- A loop around a partial that shows the metadata in front of a loop of its own and behind it. -/
def twiceShown : Fields String :=
  [("partials.p", "{{ blade_loop }}@loop($b as $y)@endloop|{{ blade_loop }}"),
    ("t", "@loop($a as $x)@partial('p')@endloop")]

def twiceShownEngine : Engine Unit where
  library := (ofTemplates twiceShown).library
  host := Host.none
  hostState := ()

def twiceShownScript (source : String) : Script :=
  if source = "@loop($a as $x)@partial('p')@endloop" then
    .loop "" .loop (.path true ⟨"a", []⟩) "x" (.child "" "p" (.done "")) (.done "")
  else
    .echo "" ⟨"blade_loop", []⟩
      (.loop "" .loop (.path true ⟨"b", []⟩) "y" (.done "")
        (.echo "|" ⟨"blade_loop", []⟩ (.done "")))

def oneItem : ViewData :=
  [("a", .list [.int 1])]

theorem scriptLibrary_twiceShown : ScriptLibrary twiceShownEngine.library twiceShownScript where
  directives := rfl
  sources := fun template source loaded => by
    have known := Value.mem_of_lookup_eq_some (Except.ok.inj loaded)
    simp only [twiceShown, List.mem_cons, Prod.mk.injEq, List.not_mem_nil, or_false] at known
    rcases known with ⟨rfl, rfl⟩ | ⟨rfl, rfl⟩
    · exact ⟨by decide +kernel, by decide +kernel⟩
    · exact ⟨by decide +kernel, by decide +kernel⟩

theorem renderRoot_twiceShown_eq_interpret :
    ((twiceShownEngine.renderRoot "t" oneItem none).1,
        (twiceShownEngine.renderRoot "t" oneItem none).2.hostState) =
      twiceShownEngine.interpret twiceShownScript "t" oneItem none := by
  have defaults : ∀ template layer, twiceShownEngine.defaults template = .ok layer →
      Ordinary layer := by
    intro _ _ supplied
    cases supplied
    exact fun _ hmem => nomatch hmem
  have tamed : tame [oneItem] = true := by decide +kernel
  exact renderRoot_eq_interpret scriptLibrary_twiceShown (fun _ _ hmem => nomatch hmem)
    (fun _ hmem => nomatch hmem) defaults (fun _ => trivial) "t"
    (ordinary_of_tame tamed _ List.mem_cons_self) none

def halvesAgree (octets : List UInt8) : Bool :=
  octets.take (octets.length / 2) == octets.drop (octets.length / 2 + 1)

theorem halvesAgree_of_twice (shown : List UInt8) (middle : UInt8) :
    halvesAgree (shown ++ middle :: shown) = true := by
  have half : (shown.length + (shown.length + 1)) / 2 = shown.length := by omega
  simp [halvesAgree, half]

/-- In a partial the metadata of the loop around it does not look the same behind a loop as in front
of it, where it was handed down as data. -/
theorem twiceShown_looks_different : ∃ output,
    (twiceShownEngine.render "t" oneItem).1 = .ok output ∧
      ∀ shown : String, output ≠ shown ++ "|" ++ shown := by
  -- the octets are compared and not the characters, which are slow to decode
  have differs : ((twiceShownEngine.render "t" oneItem).1.toOption.any
      fun output => !halvesAgree output.toByteArray.data.toList) = true := by
    decide +kernel
  cases rendered : (twiceShownEngine.render "t" oneItem).1 with
  | error failure =>
      rw [rendered] at differs
      cases differs
  | ok output =>
      refine ⟨output, rfl, fun shown same => ?_⟩
      have twice : output.toByteArray.data.toList =
          shown.toByteArray.data.toList ++ 124 :: shown.toByteArray.data.toList := by
        rw [same, String.append_assoc]
        simp only [String.toByteArray_append, ByteArray.data_append, Array.toList_append]
        rfl
      rw [rendered] at differs
      simp [Except.toOption, twice, halvesAgree_of_twice] at differs

end Engine

end ThemeTemplates
