import RegexSearch.Log.Filter

/-! A filter keeps the directive written last for each target. Of those for one target the most
specific governs, and only an empty name ties with a directive for all targets. -/

namespace RegexSearch.Log

namespace Directive

variable {new best : Directive} {directives before after : List Directive}

theorem find?_place (target : Option (List Char)) :
    (place new directives).find? (·.target = target) =
      if new.target = target then some new else directives.find? (·.target = target) := by
  fun_induction place new directives with
  | case1 => by_cases hnew : new.target = target <;> simp [hnew]
  | case2 old others hsame => by_cases hnew : new.target = target <;> simp [hsame, hnew]
  | case3 old others hother ih =>
      rw [List.find?_cons, List.find?_cons, ih]
      by_cases hnew : new.target = target
      · have hold : old.target ≠ target := hnew ▸ hother
        simp [hnew, hold]
      · simp [hnew]

/-- A directive that is not for a target is not seen from there, nor is the one it replaces. -/
theorem filter_place {target : List Char} (h : new.appliesTo target = false) :
    (place new directives).filter (·.appliesTo target) =
      directives.filter (·.appliesTo target) := by
  fun_induction place new directives with
  | case1 => simp [h]
  | case2 old others hsame =>
      have hold : old.appliesTo target = false := by
        rw [appliesTo, hsame]
        exact h
      simp [h, hold]
  | case3 old others hother ih => rw [List.filter_cons, List.filter_cons, ih]

theorem target_eq_of_specificity_eq {target : List Char} {directive other : Directive}
    (happlies : directive.appliesTo target) (happlies' : other.appliesTo target)
    (heq : directive.specificity = other.specificity) (hpos : 0 < directive.specificity) :
    directive.target = other.target := by
  have hpos' : 0 < other.specificity := heq ▸ hpos
  cases hname : directive.target with
  | none => simp [specificity, hname] at hpos
  | some name =>
      cases hname' : other.target with
      | none => simp [specificity, hname'] at hpos'
      | some name' =>
          simp only [appliesTo, hname, hname', List.isPrefixOf_iff_prefix] at happlies happlies'
          simp only [specificity, hname, hname', Option.getD_some] at heq
          have hfront : name <+: name' :=
            List.prefix_of_prefix_length_le happlies happlies' (Nat.le_of_eq heq)
          rw [hfront.eq_of_length heq]

/-! ## The most specific directive -/

theorem mostSpecific?_eq_none_iff : mostSpecific? directives = none ↔ directives = [] := by
  cases directives with
  | nil => simp [mostSpecific?]
  | cons directive others =>
      cases h : mostSpecific? others with
      | none => simp [mostSpecific?, h]
      | some later =>
          by_cases hlt : later.specificity < directive.specificity <;> simp [mostSpecific?, h, hlt]

theorem mostSpecific?_spec (h : mostSpecific? directives = some best) :
    ∃ before after, directives = before ++ best :: after ∧
      (∀ earlier ∈ before, earlier.specificity ≤ best.specificity) ∧
      ∀ later ∈ after, later.specificity < best.specificity := by
  fun_induction mostSpecific? directives generalizing best with
  | case1 => contradiction
  | case2 directive others hlater _ =>
      obtain rfl := Option.some.inj h
      exact ⟨[], [], by simp [mostSpecific?_eq_none_iff.mp hlater], by simp, by simp⟩
  | case3 directive others later hlater hlt ih =>
      obtain rfl := Option.some.inj h
      obtain ⟨before, after, rfl, hbefore, hafter⟩ := ih hlater
      refine ⟨[], before ++ later :: after, rfl, by simp, ?_⟩
      intro other hother
      rcases List.mem_append.mp hother with hmem | hmem
      · exact Nat.lt_of_le_of_lt (hbefore other hmem) hlt
      · cases hmem with
        | head => exact hlt
        | tail _ hmem => exact Nat.lt_trans (hafter other hmem) hlt
  | case4 directive others later hlater hlt ih =>
      obtain rfl := Option.some.inj h
      obtain ⟨before, after, rfl, hbefore, hafter⟩ := ih hlater
      refine ⟨directive :: before, after, rfl, ?_, hafter⟩
      intro earlier hearlier
      cases hearlier with
      | head => exact Nat.le_of_not_lt hlt
      | tail _ hmem => exact hbefore earlier hmem

theorem mostSpecific?_append (hbefore : ∀ earlier ∈ before, earlier.specificity ≤ best.specificity)
    (hafter : ∀ later ∈ after, later.specificity < best.specificity) :
    mostSpecific? (before ++ best :: after) = some best := by
  induction before with
  | nil =>
      cases hlater : mostSpecific? after with
      | none => simp [mostSpecific?, hlater]
      | some later =>
          obtain ⟨_, _, rfl, -⟩ := mostSpecific?_spec hlater
          simp [mostSpecific?, hlater, hafter later (by simp)]
  | cons directive before ih =>
      have hrest := ih fun earlier hmem => hbefore earlier (List.mem_cons_of_mem directive hmem)
      have hle : ¬ best.specificity < directive.specificity :=
        Nat.not_lt_of_le (hbefore directive (by simp))
      simp [mostSpecific?, hrest, hle]

end Directive

theorem Threshold.admits_of_rank_le {threshold : Threshold} {level detailed : Level}
    (h : threshold.admits detailed) (hrank : level.rank ≤ detailed.rank) :
    threshold.admits level := by
  cases threshold with
  | none => exact h
  | some most => exact decide_eq_true (Nat.le_trans hrank (of_decide_eq_true h))

namespace Filter

open Directive

variable {filter : Filter} {directives : List Directive} {wording : Option (List Char → Bool)}

/-! ## One directive for each target -/

def directiveFor? (filter : Filter) (target : Option (List Char)) : Option Directive :=
  filter.directives.find? (·.target = target)

theorem mem_directives_iff {directive : Directive} :
    directive ∈ filter.directives ↔ filter.directiveFor? directive.target = some directive := by
  constructor
  · intro hmem
    obtain ⟨before, after, hsplit⟩ := List.append_of_mem hmem
    have hdistinct := filter.distinct
    rw [hsplit, List.pairwise_append] at hdistinct
    rw [directiveFor?, List.find?_eq_some_iff_append]
    refine ⟨by simp, before, after, hsplit, ?_⟩
    intro earlier hearlier
    simpa using hdistinct.2.2 earlier hearlier directive (by simp)
  · exact List.mem_of_find?_eq_some

theorem directiveFor?_insert (filter : Filter) (new : Directive) (target : Option (List Char)) :
    (filter.insert new).directiveFor? target =
      if new.target = target then some new else filter.directiveFor? target :=
  find?_place target

theorem directiveFor?_foldl (target : Option (List Char)) :
    (directives.foldl insert filter).directiveFor? target =
      (directives.reverse.find? (·.target = target)).or (filter.directiveFor? target) := by
  induction directives generalizing filter with
  | nil => rfl
  | cons new others ih =>
      rw [List.foldl_cons, ih, directiveFor?_insert, List.reverse_cons, List.find?_append,
        Option.or_assoc]
      by_cases hnew : new.target = target <;> simp [hnew]

/-- Of the directives written for a target the last one counts. -/
theorem mem_ofDirectives_iff {directive : Directive} :
    directive ∈ (ofDirectives directives wording).directives ↔
      ∃ before after, directives = before ++ directive :: after ∧
        ∀ later ∈ after, later.target ≠ directive.target := by
  have hempty : directiveFor? ⟨[], .nil, wording⟩ directive.target = none := rfl
  rw [mem_directives_iff, ofDirectives, directiveFor?_foldl, hempty, Option.or_none,
    List.find?_eq_some_iff_append]
  constructor
  · intro ⟨_, front, back, hsplit, hfront⟩
    refine ⟨back.reverse, front.reverse, ?_, ?_⟩
    · simpa using congrArg List.reverse hsplit
    · intro later hlater
      simpa using hfront later (List.mem_reverse.mp hlater)
  · intro ⟨before, after, hsplit, hafter⟩
    refine ⟨by simp, after.reverse, before.reverse, by simp [hsplit], ?_⟩
    intro later hlater
    simpa using hafter later (List.mem_reverse.mp hlater)

/-! ## The governing directive -/

theorem governing?_eq_none_iff {target : List Char} :
    filter.governing? target = none ↔
      ∀ directive ∈ filter.directives, directive.appliesTo target = false := by
  rw [governing?, mostSpecific?_eq_none_iff, List.filter_eq_nil_iff]
  simp

theorem governing?_eq_some_iff {target : List Char} {best : Directive} :
    filter.governing? target = some best ↔ best.appliesTo target ∧
      ∃ before after, filter.directives = before ++ best :: after ∧
        (∀ earlier ∈ before, earlier.appliesTo target →
          earlier.specificity ≤ best.specificity) ∧
        ∀ later ∈ after, later.appliesTo target → later.specificity < best.specificity := by
  constructor
  · intro hgoverning
    obtain ⟨_, _, hsplit, hbefore, hafter⟩ := mostSpecific?_spec hgoverning
    obtain ⟨before, rest, hdirectives, rfl, hrest⟩ := List.filter_eq_append_iff.mp hsplit
    obtain ⟨others, after, rfl, hothers, hbest, rfl⟩ := List.filter_eq_cons_iff.mp hrest
    refine ⟨hbest, before ++ others, after, by simp [hdirectives], ?_, ?_⟩
    · intro earlier hearlier happlies
      rcases List.mem_append.mp hearlier with hmem | hmem
      · exact hbefore earlier (List.mem_filter.mpr ⟨hmem, happlies⟩)
      · exact absurd happlies (hothers earlier hmem)
    · intro later hlater happlies
      exact hafter later (List.mem_filter.mpr ⟨hlater, happlies⟩)
  · intro ⟨hbest, before, after, hsplit, hbefore, hafter⟩
    rw [governing?, hsplit, List.filter_append, List.filter_cons, if_pos hbest]
    apply mostSpecific?_append
    · intro earlier hearlier
      obtain ⟨hmem, happlies⟩ := List.mem_filter.mp hearlier
      exact hbefore earlier hmem happlies
    · intro later hlater
      obtain ⟨hmem, happlies⟩ := List.mem_filter.mp hlater
      exact hafter later hmem happlies

/-- At a target, only an empty name ties with a directive for all targets. -/
theorem eq_of_specificity_eq {target : List Char} {directive other : Directive}
    (hdirective : directive ∈ filter.directives) (hother : other ∈ filter.directives)
    (happlies : directive.appliesTo target) (happlies' : other.appliesTo target)
    (heq : directive.specificity = other.specificity) (hpos : 0 < directive.specificity) :
    directive = other := by
  have htarget := target_eq_of_specificity_eq happlies happlies' heq hpos
  have hfound := mem_directives_iff.mp hdirective
  rw [htarget, mem_directives_iff.mp hother] at hfound
  exact (Option.some.inj hfound).symm

theorem governing?_insert_of_not_appliesTo {target : List Char} {new : Directive}
    (h : new.appliesTo target = false) :
    (filter.insert new).governing? target = filter.governing? target := by
  rw [governing?, governing?, insert, filter_place h]

/-! ## Entries -/

theorem admits_iff {entry : Entry} :
    filter.admits entry ↔
      (∃ directive, filter.governing? entry.target = some directive ∧
        directive.threshold.admits entry.level) ∧
      ∀ wording, filter.wording = some wording → wording entry.message := by
  rw [admits, Bool.and_eq_true, Option.any_eq_true, Option.all_eq_true]

theorem admits_of_rank_le {entry detailed : Entry} (h : filter.admits detailed)
    (htarget : entry.target = detailed.target) (hmessage : entry.message = detailed.message)
    (hrank : entry.level.rank ≤ detailed.level.rank) : filter.admits entry := by
  obtain ⟨⟨directive, hgoverning, hlevel⟩, hwording⟩ := admits_iff.mp h
  rw [admits_iff, htarget, hmessage]
  exact ⟨⟨directive, hgoverning, Threshold.admits_of_rank_le hlevel hrank⟩, hwording⟩

theorem errorsOnly_admits_iff {entry : Entry} :
    errorsOnly.admits entry ↔ entry.level = .error := by
  have hgoverning : errorsOnly.governing? entry.target = some ⟨none, some .error⟩ := rfl
  have hwording : errorsOnly.wording = none := rfl
  simp only [admits_iff, hgoverning, hwording]
  cases entry.level <;> simp [Threshold.admits, Level.rank]

end Filter

/-! ## Written filters -/

namespace Spec

/-- Every item is read or reported. -/
theorem length_ofList (list : List Char) :
    (ofList list).directives.length + (ofList list).faults.length = (items list).length := by
  unfold ofList
  induction items list with
  | nil => rfl
  | cons item others ih =>
      rw [List.foldr_cons, cons, List.length_cons, ← ih]
      split
      · exact Nat.succ_add _ _
      · rfl

theorem directives_withExpression (reader : ExpressionReader) (expression : List Char)
    (spec : Spec) : (spec.withExpression reader expression).directives = spec.directives := by
  unfold withExpression
  split <;> rfl

end Spec

end RegexSearch.Log
