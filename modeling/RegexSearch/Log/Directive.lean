import RegexSearch.Log.Level
import RegexSearch.Text.Blank
import RegexSearch.Text.Fields

/-! # Directives of a log

Rules about what a log lets through. They are written as a list with commas: a level for all
targets, or a target with or without a level of its own. -/

namespace RegexSearch.Log

/-- A part of a written filter that is left out. -/
inductive Fault where
  /-- A directive with more than one equals sign, or behind it a word that is no level. -/
  | invalid (part : List Char)
  /-- A filter with more than one slash. -/
  | slashes (spec : List Char)
  /-- An expression that cannot be read, by what is wrong with it. -/
  | expression (complaint : List Char)
deriving DecidableEq

def Fault.message : Fault → List Char
  | invalid part => "invalid logging spec '".toList ++ part ++ "', ignoring it".toList
  | slashes spec =>
    "invalid logging spec '".toList ++ spec ++ "' (too many '/'s), ignoring it".toList
  | expression complaint =>
    "invalid regex filter - ".toList ++ complaint ++ ", ignoring it".toList

/-- A rule for the targets whose names begin with a text, or for all of them. -/
structure Directive where
  target : Option (List Char)
  threshold : Threshold
deriving DecidableEq

namespace Directive

def appliesTo (directive : Directive) (target : List Char) : Bool :=
  match directive.target with
  | none => true
  | some name => name.isPrefixOf target

/-- How much of a target's name the rule fixes. -/
def specificity (directive : Directive) : Nat :=
  (directive.target.getD []).length

/-- Reads one directive. A target alone, or with nothing behind its equals sign, lets everything
through. -/
def parse (item : List Char) : Except Fault Directive :=
  match Text.fields '=' item with
  | [word] =>
    match Threshold.ofName? word with
    | some threshold => .ok ⟨none, threshold⟩
    | none => .ok ⟨some word, some .trace⟩
  | [target, word] =>
    let word := Text.trim word
    if word.isEmpty then .ok ⟨some target, some .trace⟩
    else match Threshold.ofName? word with
      | some threshold => .ok ⟨some target, threshold⟩
      | none => .error (.invalid word)
  | _ => .error (.invalid item)

/-- Puts a directive in the place of the one for the same target, or at the end if there is
none. -/
def place (new : Directive) : List Directive → List Directive
  | [] => [new]
  | old :: others =>
    if old.target = new.target then new :: others else old :: place new others

theorem mem_place {new directive : Directive} {directives : List Directive}
    (h : directive ∈ place new directives) : directive = new ∨ directive ∈ directives := by
  fun_induction place new directives with
  | case1 => exact .inl (List.mem_singleton.mp h)
  | case2 old others hsame => exact (List.mem_cons.mp h).imp id (List.mem_cons_of_mem old)
  | case3 old others hother ih =>
      cases List.mem_cons.mp h with
      | inl hold => exact .inr (List.mem_cons.mpr (.inl hold))
      | inr hothers => exact (ih hothers).imp id (List.mem_cons_of_mem old)

theorem distinct_place (new : Directive) {directives : List Directive}
    (h : directives.Pairwise (·.target ≠ ·.target)) :
    (place new directives).Pairwise (·.target ≠ ·.target) := by
  fun_induction place new directives with
  | case1 => exact List.pairwise_singleton _ _
  | case2 old others hsame =>
      obtain ⟨hold, hothers⟩ := List.pairwise_cons.mp h
      exact .cons (hsame ▸ hold) hothers
  | case3 old others hother ih =>
      obtain ⟨hold, hothers⟩ := List.pairwise_cons.mp h
      refine .cons ?_ (ih hothers)
      intro directive hmem
      cases mem_place hmem with
      | inl hnew => exact hnew ▸ hother
      | inr hlater => exact hold directive hlater

/-- Of directives the most specific, and of equals the last. -/
def mostSpecific? : List Directive → Option Directive
  | [] => none
  | directive :: others =>
    match mostSpecific? others with
    | none => some directive
    | some best => if best.specificity < directive.specificity then some directive else some best

end Directive

end RegexSearch.Log
