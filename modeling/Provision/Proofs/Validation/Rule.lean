import Provision.Proofs.Blueprint

/-!
# The rules of configurations

What a configuration must not do, said of the configuration alone, and the order in which
violations are told: rule by rule, within a rule by the place of the owner among the
declarations, and for one owner by the place of the name among all that it refers to.

> `Config.Breaks`: the violations that a configuration gives reason for;
> `Config.Before`: the order of violations.
-/

namespace Provision

/-- What checks a target: its check, or the first step of its recipe, or an invocation that its
setup begins with. -/
inductive TargetDeclaration.CheckedBy (d : TargetDeclaration) : Executable → Prop
  | check {e : Executable} (given : d.check = some e) : CheckedBy d e
  | recipe {e : Executable} {rest : List Executable} (noCheck : d.check = none)
      (first : d.recipe = e :: rest) : CheckedBy d e
  | setup {i : Invocation} {rest : List Executable} (noCheck : d.check = none)
      (noRecipe : d.recipe = []) (first : d.setup = .invocation i :: rest) :
      CheckedBy d (.invocation i)

/-- Whether there is nothing that installs a target. -/
def TargetDeclaration.IsEmpty (d : TargetDeclaration) : Prop := d.setup = [] ∧ d.recipe = []

namespace Config

/-- The violations that a configuration gives reason for. Any cycle is a reason, though only one
of them is told. -/
inductive Breaks (c : Config) : Violation → Prop
  | unsupportedVersion (other : c.version ≠ "1.0") : Breaks c (.unsupportedVersion c.version)
  | emptyName (empty : c.name = "") : Breaks c .emptyName
  | unknownDependency {t d : String} (refers : c.DependsOn t d) (unknown : d ∉ c.targets.keys) :
      Breaks c (.unknownDependency t d)
  | unknownRecipe {o : Owner} {r : String} (refers : r ∈ c.invoked o)
      (unknown : r ∉ c.recipes.keys) : Breaks c (.unknownRecipe o r)
  | dependencyCycle {path : List String} (cycle : IsCycle c.Needs path) :
      Breaks c (.dependencyCycle path)
  | recipeCycle {path : List String} (cycle : IsCycle c.Nests path) :
      Breaks c (.recipeCycle path)
  | noRootTarget (noRoot : ∀ t ∈ c.targets.keys, c.declared t ≠ []) : Breaks c .noRootTarget
  | emptyProcedure {t : String} {d : TargetDeclaration} (target : c.targets.get? t = some d)
      (empty : d.IsEmpty) : Breaks c (.emptyProcedure t)
  | noCheckCommand {t : String} {d : TargetDeclaration} {command : String}
      {rest : List Executable} (target : c.targets.get? t = some d) (noCheck : d.check = none)
      (noRecipe : d.recipe = []) (raw : d.setup = .command command :: rest) :
      Breaks c (.noCheckCommand t)
  | recipeWithoutCheck {t : String} {d : TargetDeclaration} {i : Invocation}
      {r : RecipeDeclaration} (target : c.targets.get? t = some d) (nonempty : ¬ d.IsEmpty)
      (checked : d.CheckedBy (.invocation i)) (recipe : c.recipes.get? i.recipe = some r)
      (noCheck : r.check = none) : Breaks c (.recipeWithoutCheck i.recipe t)

end Config

/-! ## The order of violations -/

/-- The rule that a violation is about. The last one is a choice of three: a target is told of
at most once for its procedure. -/
def Violation.rule : Violation → Nat
  | unsupportedVersion _ => 0
  | emptyName => 1
  | unknownDependency _ _ => 2
  | unknownRecipe (.target _) _ => 3
  | unknownRecipe (.recipe _) _ => 4
  | dependencyCycle _ => 5
  | recipeCycle _ => 6
  | noRootTarget => 7
  | emptyProcedure _ | noCheckCommand _ | recipeWithoutCheck _ _ => 8

/-- The cycle that a violation tells. -/
def Violation.path? : Violation → Option (List String)
  | dependencyCycle path | recipeCycle path => some path
  | _ => none

/-- Whether a violation tells what the procedure of a target lacks. -/
def Violation.IsProcedureOf (target : String) : Violation → Prop
  | emptyProcedure t | noCheckCommand t | recipeWithoutCheck _ t => t = target
  | _ => False

namespace Config

/-- The place of the owner of a violation among the declarations. -/
def ownerPlace (c : Config) : Violation → Nat
  | .unknownDependency t _ | .unknownRecipe (.target t) _ => c.targets.keys.idxOf t
  | .emptyProcedure t | .noCheckCommand t | .recipeWithoutCheck _ t => c.targets.keys.idxOf t
  | .unknownRecipe (.recipe n) _ => c.recipes.keys.idxOf n
  | _ => 0

/-- The place of an unknown name among all that its owner refers to. -/
def namePlace (c : Config) : Violation → Nat
  | .unknownDependency t d => (c.declared t).idxOf d
  | .unknownRecipe o r => (c.invoked o).idxOf r
  | _ => 0

/-- Whether a violation is told before another one. -/
def Before (c : Config) (v w : Violation) : Prop :=
  v.rule < w.rule ∨ v.rule = w.rule ∧
    (c.ownerPlace v < c.ownerPlace w ∨
      c.ownerPlace v = c.ownerPlace w ∧ c.namePlace v < c.namePlace w)

/-- No violation comes before itself. -/
theorem Before.irrefl (c : Config) (v : Violation) : ¬ c.Before v v := by
  unfold Before
  omega

/-! ## Sorted lists of violations -/

/-- Violations of a range of rules, in order. -/
structure Sorted (c : Config) (first last : Nat) (vs : List Violation) : Prop where
  pairwise : vs.Pairwise c.Before
  rules : ∀ v ∈ vs, first ≤ v.rule ∧ v.rule ≤ last

variable {c : Config}

/-- Whether two violations are the same or have an order. -/
def Comparable (c : Config) (v w : Violation) : Prop := c.Before v w ∨ c.Before w v ∨ v = w

theorem comparable_symm : Std.Symm c.Comparable :=
  ⟨fun _ _ h => h.elim (Or.inr ∘ Or.inl) (Or.imp id (Or.inr ∘ Eq.symm))⟩

/-- Sorted violations can be compared in one direction or the other. -/
theorem Sorted.comparable {first last : Nat} {vs : List Violation} (h : c.Sorted first last vs) :
    ∀ v ∈ vs, ∀ w ∈ vs, c.Comparable v w := by
  have := comparable_symm (c := c)
  have hself : ∀ v ∈ vs, c.Comparable v v := fun _ _ => Or.inr (Or.inr rfl)
  have hpairs : vs.Pairwise c.Comparable := h.pairwise.imp Or.inl
  exact fun v hv w hw => List.Pairwise.forall_of_forall hself hpairs hv hw

theorem Sorted.nil (first last : Nat) : c.Sorted first last [] := ⟨.nil, by simp⟩

theorem Sorted.singleton (v : Violation) : c.Sorted v.rule v.rule [v] :=
  ⟨List.pairwise_singleton _ _, by simp⟩

/-- Two sorted lists of rules that follow each other are sorted together. -/
theorem Sorted.append {first middle next last : Nat} {vs ws : List Violation}
    (hv : c.Sorted first middle vs) (hw : c.Sorted next last ws) (hfirst : first ≤ next)
    (hmiddle : middle < next) (hlast : middle ≤ last) : c.Sorted first last (vs ++ ws) := by
  refine ⟨List.pairwise_append.mpr ⟨hv.pairwise, hw.pairwise, fun v hvm w hwm => ?_⟩, ?_⟩
  · have hlow := (hv.rules v hvm).2
    have hhigh := (hw.rules w hwm).1
    exact Or.inl (by omega)
  · intro v hvm
    rcases List.mem_append.mp hvm with hvm | hvm
    · have hrules := hv.rules v hvm
      omega
    · have hrules := hw.rules v hvm
      omega

end Config

end Provision
