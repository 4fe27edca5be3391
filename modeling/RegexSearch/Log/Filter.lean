import RegexSearch.Log.Directive
import RegexSearch.Log.Entry

/-! # Log filters

A filter says for each target how detailed its entries may be, and may ask for a certain wording.
It is written as directives, and behind a slash an expression for the wording. What the expressions
are is left open. -/

namespace RegexSearch.Log

/-- A language of expressions: the wordings that an expression is for, or what is wrong with it. -/
abbrev ExpressionReader := List Char → Except (List Char) (List Char → Bool)

/-- Directives in the order that settles ties, no two for one target, and the wordings let
through, if that matters. -/
structure Filter where
  directives : List Directive
  distinct : directives.Pairwise (·.target ≠ ·.target)
  wording : Option (List Char → Bool)

namespace Filter

/-- Adds a directive. It takes the place of the one for the same target. -/
def insert (filter : Filter) (new : Directive) : Filter where
  directives := Directive.place new filter.directives
  distinct := Directive.distinct_place new filter.distinct
  wording := filter.wording

/-- The filter that directives make up, each added to those before it. -/
def ofDirectives (directives : List Directive) (wording : Option (List Char → Bool)) : Filter :=
  directives.foldl insert ⟨[], .nil, wording⟩

def errorsOnly : Filter := ofDirectives [⟨none, some .error⟩] none

/-- The directive that governs a target: of those for it the most specific, and of equals the
last. -/
def governing? (filter : Filter) (target : List Char) : Option Directive :=
  Directive.mostSpecific? (filter.directives.filter (·.appliesTo target))

/-- Whether an entry passes. Nothing passes from a target that no directive is for. -/
def admits (filter : Filter) (entry : Entry) : Bool :=
  (filter.governing? entry.target).any (·.threshold.admits entry.level) &&
    filter.wording.all (· entry.message)

end Filter

/-- A written filter as read. -/
structure Spec where
  directives : List Directive
  wording : Option (List Char → Bool)
  faults : List Fault

namespace Spec

def cons (item : List Char) (spec : Spec) : Spec :=
  match Directive.parse item with
  | .ok directive => { spec with directives := directive :: spec.directives }
  | .error fault => { spec with faults := fault :: spec.faults }

/-- The items of a list with commas. Blank ones do not count. -/
def items (list : List Char) : List (List Char) :=
  ((Text.fields ',' list).map Text.trim).filter fun item => !item.isEmpty

def ofList (list : List Char) : Spec := (items list).foldr cons ⟨[], none, []⟩

def withExpression (reader : ExpressionReader) (expression : List Char) (spec : Spec) : Spec :=
  match reader expression with
  | .ok wording => { spec with wording := some wording }
  | .error complaint => { spec with faults := spec.faults ++ [.expression complaint] }

/-- Reads a written filter. With more than one slash nothing of it counts. -/
def read (reader : ExpressionReader) (text : List Char) : Spec :=
  match Text.fields '/' text with
  | [list] => ofList list
  | [list, expression] => (ofList list).withExpression reader expression
  | _ => ⟨[], none, [.slashes text]⟩

/-- The filter described. Without directives only errors pass. -/
def filter (spec : Spec) : Filter :=
  .ofDirectives (if spec.directives.isEmpty then [⟨none, some .error⟩] else spec.directives)
    spec.wording

end Spec

end RegexSearch.Log
