import ThemeTemplates.Proofs.Page.Avoidance
import ThemeTemplates.Proofs.Page.Mirror

/-!
# Expressions without hidden functions

An expression changes its surroundings only by the functions it calls. In surroundings whose
functions, apart from hidden ones, mirror those of others, so does every expression that names no
hidden one; if they keep an invariant, so does the expression, whether it yields a value or stops.
-/

namespace ThemeTemplates.Evaluation

variable {σ τ : Type} {hidden : String → Prop}

/-- The functions that are not hidden, called from a site with values that hold no hidden one, keep
an invariant and yield no hidden one. -/
def CallsPreserve (hidden : String → Prop) (strict : Prop) (inv : σ → Prop)
    (surroundings : Surroundings σ) (site : Site) : Prop :=
  ∀ name args, ¬ hidden name → Value.ItemsAvoid hidden args →
    Preserves strict inv (surroundings.call site name args) (Value.Avoids hidden)

/-- The functions that are not hidden have images that keep the states related. -/
def CallsMirror (hidden : String → Prop) (m : Mirror σ τ) (related : σ → τ → Prop)
    (source : Surroundings σ) (image : Surroundings τ) (site : Site) : Prop :=
  ∀ name args, ¬ hidden name → Value.ItemsAvoid hidden args →
    Mirrors m related (source.call site name args) (image.call site name args)
      (Value.Avoids hidden) (Same fun _ => related)

theorem resolve?_avoids {surroundings : Surroundings σ} {scope : Scope}
    (hscope : scope.Avoids hidden) {name : String} {value : Value} (hname : ¬ hidden name)
    (found : resolve? surroundings scope name = some value) : value.Avoids hidden := by
  unfold resolve? at found
  split at found
  · next inScope =>
      cases found
      exact (hscope.find? inScope).avoids
  · split at found
    · cases found
      exact hname
    · cases found

section

variable {m : Mirror σ τ} {related : σ → τ → Prop} {source : Surroundings σ}
  {image : Surroundings τ} {site : Site} (hsite : site.scope.Avoids hidden)
  (functions : image.isFunction = source.isFunction)
  (hcalls : CallsMirror hidden m related source image site)
  (hstop : ∀ s r, related s r → m.stopped s r)

theorem resolve?_image (functions : image.isFunction = source.isFunction) (scope : Scope)
    (name : String) : resolve? image scope name = resolve? source scope name := by
  unfold resolve?
  rw [functions]

include hstop

theorem applyFilter_mirrors (name : String) (value : Value) (args : List Value) :
    Mirrors m related (applyFilter name value args) (applyFilter name value args)
      (Value.Avoids hidden) (Same fun _ => related) := by
  unfold applyFilter
  split
  · split
    · exact Mirrors.pure trivial fun _ _ h => ⟨rfl, h⟩
    · exact Mirrors.complain _ hstop
  · split
    · exact Mirrors.pure trivial fun _ _ h => ⟨rfl, h⟩
    · exact Mirrors.complain _ hstop
  · exact Mirrors.complain _ hstop

theorem applyTest_mirrors (name : String) (value : Value) (args : List Value) :
    Mirrors m related (applyTest name value args) (applyTest name value args)
      (fun _ => True) (Same fun _ => related) := by
  unfold applyTest
  simp only
  split
  · split
    · exact Mirrors.pure trivial fun _ _ h => ⟨rfl, h⟩
    · exact Mirrors.complain _ hstop
  · split
    · exact Mirrors.pure trivial fun _ _ h => ⟨rfl, h⟩
    · exact Mirrors.complain _ hstop
  · exact Mirrors.complain _ hstop

include hcalls

theorem applyValue_mirrors {value : Value} (hvalue : value.Avoids hidden) {args : List Value}
    (hargs : Value.ItemsAvoid hidden args) :
    Mirrors m related (applyValue source site value args) (applyValue image site value args)
      (Value.Avoids hidden) (Same fun _ => related) := by
  cases value with
  | function name => exact hcalls name args hvalue hargs
  | _ => exact Mirrors.complain _ hstop

include hsite functions

set_option linter.unusedSectionVars false

mutual
theorem eval_mirrors : ∀ e : Expression, e.Avoids hidden →
    Mirrors m related (eval source site e) (eval image site e) (Value.Avoids hidden)
      (Same fun _ => related)
  | .constant _ value, he => Mirrors.pure he fun _ _ h => ⟨rfl, h⟩
  | .named _ name, he => by
      unfold eval
      rw [resolve?_image functions]
      refine Mirrors.pure (Value.avoids_getD fun value found => ?_) fun _ _ h => ⟨rfl, h⟩
      exact resolve?_avoids hsite he found
  | .list _ items, he => by
      refine Mirrors.bindSame (evalAll_mirrors items he) fun values hvalues => ?_
      exact Mirrors.pure hvalues fun _ _ h => ⟨rfl, h⟩
  | .map _ entries, he => by
      refine Mirrors.bindSame (evalEntries_mirrors entries he) fun values hvalues => ?_
      exact Mirrors.pure (Value.avoids_mapOf hvalues) fun _ _ h => ⟨rfl, h⟩
  | .field base name, he => by
      refine Mirrors.bindSame (eval_mirrors base he) fun value hvalue => ?_
      exact Mirrors.pure (hvalue.lookup _) fun _ _ h => ⟨rfl, h⟩
  | .element base key, he => by
      refine Mirrors.bindSame (eval_mirrors base he.1) fun value hvalue => ?_
      refine Mirrors.bindSame (eval_mirrors key he.2) fun _ _ => ?_
      exact Mirrors.pure (hvalue.lookup _) fun _ _ h => ⟨rfl, h⟩
  | .call line function args, he => by
      unfold eval
      rw [resolve?_image functions]
      refine Mirrors.bindSame (evalAll_mirrors args he.2) fun values hvalues => ?_
      refine Mirrors.locate ?_ _ _
      split
      · next value found =>
          split
          · exact Mirrors.complain _ hstop
          · exact applyValue_mirrors hcalls hstop (resolve?_avoids hsite he.1 found) hvalues
      · exact Mirrors.complain _ hstop
  | .apply line base args, he => by
      refine Mirrors.bindSame (eval_mirrors base he.1) fun value hvalue => ?_
      refine Mirrors.bindSame (evalAll_mirrors args he.2) fun values hvalues => ?_
      exact Mirrors.locate (applyValue_mirrors hcalls hstop hvalue hvalues) _ _
  | .filter line base name args, he => by
      refine Mirrors.bindSame (eval_mirrors base he.1) fun value _ => ?_
      refine Mirrors.bindSame (evalAll_mirrors args he.2) fun values _ => ?_
      exact Mirrors.locate (applyFilter_mirrors hstop name value values) _ _
  | .test line base name args, he => by
      refine Mirrors.bindSame (eval_mirrors base he.1) fun value _ => ?_
      refine Mirrors.bindSame (evalAll_mirrors args he.2) fun values _ => ?_
      refine Mirrors.locate (Mirrors.bindSame (applyTest_mirrors hstop name value values) fun _ _ =>
        ?_) _ _
      exact Mirrors.pure trivial fun _ _ h => ⟨rfl, h⟩
  | .not operand, he => by
      refine Mirrors.bindSame (eval_mirrors operand he) fun _ _ => ?_
      exact Mirrors.pure trivial fun _ _ h => ⟨rfl, h⟩
  | .negate _ operand, he => by
      refine Mirrors.bindSame (eval_mirrors operand he) fun value _ => ?_
      split
      · next negated => exact Mirrors.pure (Value.negate?_avoids negated) fun _ _ h => ⟨rfl, h⟩
      · exact Mirrors.locate (Mirrors.complain _ hstop) _ _
  | .equal first others, he => by
      refine Mirrors.bindSame (eval_mirrors first he.1) fun value _ => ?_
      refine Mirrors.bindSame (evalEqual_mirrors value others he.2) fun _ _ => ?_
      exact Mirrors.pure trivial fun _ _ h => ⟨rfl, h⟩
  | .sum left right, he => by
      refine Mirrors.bindSame (eval_mirrors left he.1) fun first hfirst => ?_
      refine Mirrors.bindSame (eval_mirrors right he.2) fun second hsecond => ?_
      split
      · next total => exact Mirrors.pure (hfirst.sum? hsecond total) fun _ _ h => ⟨rfl, h⟩
      · exact Mirrors.locate (Mirrors.complain _ hstop) _ _
  | .join left right, he => by
      refine Mirrors.bindSame (eval_mirrors left he.1) fun _ _ => ?_
      refine Mirrors.bindSame (eval_mirrors right he.2) fun _ _ => ?_
      exact Mirrors.pure trivial fun _ _ h => ⟨rfl, h⟩

theorem evalAll_mirrors : ∀ es : List Expression, Expression.AllAvoid hidden es →
    Mirrors m related (evalAll source site es) (evalAll image site es) (Value.ItemsAvoid hidden)
      (Same fun _ => related)
  | [], _ => Mirrors.pure trivial fun _ _ h => ⟨rfl, h⟩
  | first :: rest, he => by
      refine Mirrors.bindSame (eval_mirrors first he.1) fun value hvalue => ?_
      refine Mirrors.bindSame (evalAll_mirrors rest he.2) fun values hvalues => ?_
      exact Mirrors.pure ⟨hvalue, hvalues⟩ fun _ _ h => ⟨rfl, h⟩

theorem evalEntries_mirrors : ∀ entries : List (Expression × Expression),
    Expression.EntriesAvoid hidden entries →
    Mirrors m related (evalEntries source site entries) (evalEntries image site entries)
      (Value.EntriesAvoid hidden) (Same fun _ => related)
  | [], _ => Mirrors.pure trivial fun _ _ h => ⟨rfl, h⟩
  | (key, value) :: rest, he => by
      refine Mirrors.bindSame (eval_mirrors key he.1.1) fun k hk => ?_
      refine Mirrors.bindSame (eval_mirrors value he.1.2) fun v hv => ?_
      refine Mirrors.bindSame (evalEntries_mirrors rest he.2) fun vs hvs => ?_
      exact Mirrors.pure ⟨⟨hk, hv⟩, hvs⟩ fun _ _ h => ⟨rfl, h⟩

theorem evalEqual_mirrors (value : Value) : ∀ es : List Expression, Expression.AllAvoid hidden es →
    Mirrors m related (evalEqual source site value es) (evalEqual image site value es)
      (fun _ => True) (Same fun _ => related)
  | [], _ => Mirrors.pure trivial fun _ _ h => ⟨rfl, h⟩
  | next :: rest, he => by
      refine Mirrors.bindSame (eval_mirrors next he.1) fun v _ => ?_
      split
      · exact evalEqual_mirrors v rest he.2
      · exact Mirrors.pure trivial fun _ _ h => ⟨rfl, h⟩
end

end

/-! ### Invariants -/

section

variable {strict : Prop} {inv : σ → Prop} {surroundings : Surroundings σ} {site : Site}

/-- An invariant alone, as a comparison in which no two states are related. -/
def invariantMirror (strict : Prop) (inv : σ → Prop) : Mirror σ σ where
  strict := strict
  lost := inv
  stopped := fun _ _ => True

theorem CallsPreserve.mirror (hcalls : CallsPreserve hidden strict inv surroundings site) :
    CallsMirror hidden (invariantMirror strict inv) (fun _ _ => False) surroundings surroundings
      site :=
  fun name args hname hargs => ⟨hcalls name args hname hargs, fun _ _ related => related.elim⟩

theorem eval_preserves (hsite : site.scope.Avoids hidden)
    (hcalls : CallsPreserve hidden strict inv surroundings site) {e : Expression}
    (he : e.Avoids hidden) :
    Preserves strict inv (eval surroundings site e) (Value.Avoids hidden) :=
  (eval_mirrors hsite rfl hcalls.mirror (fun _ _ _ => trivial) e he).loses

theorem evalAll_preserves (hsite : site.scope.Avoids hidden)
    (hcalls : CallsPreserve hidden strict inv surroundings site) {es : List Expression}
    (hes : Expression.AllAvoid hidden es) :
    Preserves strict inv (evalAll surroundings site es) (Value.ItemsAvoid hidden) :=
  (evalAll_mirrors hsite rfl hcalls.mirror (fun _ _ _ => trivial) es hes).loses

end

end ThemeTemplates.Evaluation
