import NativeBuild.Project.Registry
import NativeBuild.Proofs.Text.Order
import NativeBuild.Proofs.Traversal

/-!
# Registering definitions

Definitions are registered one after another, up to the first that is at fault: it gives no id or
no kind, or its id is that of an earlier one.  Where none is at fault, the registry holds the
project of each under its id, and the order of the definitions does not count.

Main definitions:

- `Definition.Fault`: what is wrong with a definition after others.
- `Registrable`: definitions of which none is at fault.
- `Registry.register`: adding a project to a registry in place.

Main results:

- Theorem `ofDefinition_eq_error_iff`: which definitions define no project.
- Theorem `ofDefinitions_concat_cases`: what one more definition does.
- Theorem `ofDefinitions_cases`: what several definitions do.
- Theorem `eq_of_mem_iff`: a registry is determined by what it holds.
- Theorem `ofDefinitions_exact`: all of it together.
-/

namespace NativeBuild

namespace Definition

/-- The id that the project of a definition is registered under, if one is given. -/
def id? (d : Definition) : Option String :=
  Project.trimmedId? d.manifest

/-- The definition gives an id that is not blank, and a kind. -/
structure WellFormed (d : Definition) : Prop where
  id : ∃ text, d.manifest.id = some text ∧ Text.isBlank text = false
  kind : ∃ name, d.manifest.kind = some name

/-- What is wrong with a definition, when the given ones come before it. -/
inductive Fault (before : List Definition) (d : Definition) : BuildError → Prop
  | noId (hid : d.id? = none) :
      Fault before d (.invalidProject d.manifestPath.display "missing 'id'")
  | noKind {id : String} (hid : d.id? = some id) (hkind : d.manifest.kind = none) :
      Fault before d (.invalidProject id "missing 'type'")
  /-- An earlier definition has the same id. -/
  | repeated {id : String} {first : Definition} (hid : d.id? = some id)
      (hkind : d.manifest.kind ≠ none) (hfirst : first ∈ before) (hsame : first.id? = some id) :
      Fault before d (.duplicateProject id first.manifestPath d.manifestPath)

end Definition

/-- None of the definitions is at fault: each is well formed, and their ids are different. -/
@[mk_iff] structure Registrable (definitions : List Definition) : Prop where
  wellFormed : ∀ d ∈ definitions, d.WellFormed
  distinct : (definitions.map Definition.id?).Nodup

variable {d : Definition} {definitions before after : List Definition} {p : Project}
  {r s : Registry} {e : BuildError}

/-! ## One definition -/

namespace Definition

/-- The id is what is given, without blanks around it, unless that is nothing. -/
theorem id?_eq_some_iff {id : String} :
    d.id? = some id ↔
      ∃ text, d.manifest.id = some text ∧ Text.isBlank text = false ∧ Text.trim text = id := by
  have hblank : ∀ text, Text.trim text ≠ "" ↔ Text.isBlank text = false := by
    intro text
    rw [Ne, Text.trim_eq_empty_iff, Bool.not_eq_true]
  cases hid : d.manifest.id with
  | none => simp [id?, Project.trimmedId?, hid]
  | some text => simp [id?, Project.trimmedId?, hid, ← hblank]

/-- A definition is well formed exactly when it has an id and names a kind. -/
theorem wellFormed_iff :
    d.WellFormed ↔ (∃ id, d.id? = some id) ∧ ∃ name, d.manifest.kind = some name := by
  simp only [id?_eq_some_iff]
  constructor
  · rintro ⟨⟨text, hid, hblank⟩, hkind⟩
    exact ⟨⟨_, text, hid, hblank, rfl⟩, hkind⟩
  · rintro ⟨⟨id, text, hid, hblank, -⟩, hkind⟩
    exact ⟨⟨text, hid, hblank⟩, hkind⟩

end Definition

namespace Project

/-- The project of a definition has the id of the definition and tells its path. -/
theorem ofDefinition_eq_ok (h : ofDefinition d = .ok p) :
    d.WellFormed ∧ d.id? = some p.id ∧ p.origin = d.manifestPath := by
  unfold ofDefinition at h
  cases hid : trimmedId? d.manifest with
  | none => simp [hid] at h
  | some id =>
      cases hkind : d.manifest.kind with
      | none => simp [hid, hkind] at h
      | some name =>
          simp only [hid, hkind] at h
          cases h
          exact ⟨Definition.wellFormed_iff.2 ⟨⟨id, hid⟩, name, hkind⟩, hid, rfl⟩

/-- A definition defines no project when no id or no kind is given. -/
theorem ofDefinition_eq_error_iff :
    ofDefinition d = .error e ↔
      (d.id? = none ∧ e = .invalidProject d.manifestPath.display "missing 'id'") ∨
        ∃ id, d.id? = some id ∧ d.manifest.kind = none ∧
          e = .invalidProject id "missing 'type'" := by
  unfold ofDefinition Definition.id?
  cases hid : trimmedId? d.manifest with
  | none => simp [eq_comm]
  | some id => cases hkind : d.manifest.kind <;> simp [eq_comm]

end Project

namespace Definition

/-- After definitions with different ids, only one thing is wrong with a definition. -/
theorem Fault.unique {e' : BuildError} (hdistinct : (before.map id?).Nodup)
    (h : d.Fault before e) (h' : d.Fault before e') : e = e' := by
  cases h with
  | noId hid =>
      cases h' with
      | noId => rfl
      | noKind hid' => cases hid.symm.trans hid'
      | repeated hid' => cases hid.symm.trans hid'
  | noKind hid hkind =>
      cases h' with
      | noId hid' => cases hid.symm.trans hid'
      | noKind hid' =>
          cases hid.symm.trans hid'
          rfl
      | repeated hid' hkind' => exact absurd hkind hkind'
  | repeated hid hkind hfirst hsame =>
      cases h' with
      | noId hid' => cases hid.symm.trans hid'
      | noKind hid' hkind' => exact absurd hkind' hkind
      | repeated hid' _ hfirst' hsame' =>
          cases hid.symm.trans hid'
          rw [List.inj_on_of_nodup_map hdistinct hfirst hfirst' (hsame.trans hsame'.symm)]

end Definition

/-- Among definitions that can be registered together, none is at fault. -/
theorem Registrable.not_fault (h : Registrable (before ++ d :: after)) : ¬ d.Fault before e := by
  obtain ⟨⟨id, hid⟩, name, hkind⟩ := Definition.wellFormed_iff.1 (h.wellFormed d (by simp))
  intro hfault
  cases hfault with
  | noId hnone => cases hid.symm.trans hnone
  | noKind _ hnone => cases hkind.symm.trans hnone
  | repeated hid' _ hfirst hsame =>
      have hdistinct := h.distinct
      rw [List.map_append, List.map_cons, List.nodup_append] at hdistinct
      exact hdistinct.2.2 _ (List.mem_map_of_mem hfirst) _ List.mem_cons_self
        (hsame.trans hid'.symm)

/-- A well-formed definition with a fresh id may be added. -/
theorem Registrable.concat (h : Registrable definitions) (hformed : d.WellFormed)
    (hfresh : d.id? ∉ definitions.map Definition.id?) : Registrable (definitions ++ [d]) where
  wellFormed := by
    intro other hother
    rcases List.mem_append.1 hother with hother | hother
    · exact h.wellFormed other hother
    · rw [List.mem_singleton.1 hother]
      exact hformed
  distinct := by
    rw [List.map_append, List.map_singleton, ← List.concat_eq_append]
    exact h.distinct.concat hfresh

/-- The order of definitions does not matter for whether they can be registered. -/
theorem Registrable.perm {others : List Definition} (h : Registrable definitions)
    (hperm : others.Perm definitions) : Registrable others where
  wellFormed d hd := h.wellFormed d (hperm.mem_iff.1 hd)
  distinct := (hperm.map _).nodup_iff.2 h.distinct

namespace Registry

/-! ## What a registry holds -/

/-- The registry holds one project for each definition, and no others. -/
def Holds (r : Registry) (definitions : List Definition) : Prop :=
  ∃ projects, definitions.mapM Project.ofDefinition = .ok projects ∧ r.projects.Perm projects

/-- The projects of the registry are those of the definitions. -/
theorem Holds.mem_iff (h : r.Holds definitions) :
    p ∈ r.projects ↔ ∃ d ∈ definitions, Project.ofDefinition d = .ok p := by
  obtain ⟨projects, hprojects, hperm⟩ := h
  rw [hperm.mem_iff]
  constructor
  · exact exists_of_mem_mapM hprojects
  · rintro ⟨d, hd, hdefined⟩
    obtain ⟨q, hq, hdefined'⟩ := exists_mem_of_mapM hprojects hd
    cases hdefined.symm.trans hdefined'
    exact hq

/-- The project of a definition is found under the id of the definition. -/
theorem Holds.get? (h : r.Holds definitions) (hd : d ∈ definitions) :
    ∃ p, Project.ofDefinition d = .ok p ∧ d.id? = some p.id ∧ r.get? p.id = some p := by
  obtain ⟨projects, hprojects, -⟩ := id h
  obtain ⟨p, -, hdefined⟩ := exists_mem_of_mapM hprojects hd
  obtain ⟨-, hid, -⟩ := Project.ofDefinition_eq_ok hdefined
  exact ⟨p, hdefined, hid, get?_eq_some_iff.2 ⟨h.mem_iff.2 ⟨d, hd, hdefined⟩, rfl⟩⟩

/-- A registry is determined by what it holds, since its projects are in the order of their
ids. -/
theorem eq_of_mem_iff (hmem : ∀ p, p ∈ r.projects ↔ p ∈ s.projects) : r = s := by
  have hasymm : ∀ p q : Project, p.id < q.id → ¬ q.id < p.id := fun _ _ => String.lt_asymm
  have : Std.Asymm fun p q : Project => p.id < q.id := ⟨hasymm⟩
  exact Registry.ext (r.sorted.eq_of_mem_iff s.sorted hmem)

/-- The ids are in the order of their bytes. -/
theorem pairwise_ids (r : Registry) : (r.ids.map Text.utf8).Pairwise (· < ·) := by
  rw [List.pairwise_map, ids, List.pairwise_map]
  exact r.sorted.imp Text.utf8_lt_iff.2

/-! ## Registering one after another -/

/-- The empty registry holds no definitions. -/
theorem holds_empty : empty.Holds [] :=
  ⟨[], rfl, .nil⟩

/-- A project is placed among the others. -/
theorem perm_place (p : Project) (projects : List Project) :
    (place p projects).Perm (p :: projects) := by
  induction projects with
  | nil => rfl
  | cons q rest ih =>
      simp only [place]
      split
      · rfl
      · exact (ih.cons q).trans (.swap p q rest)

/-- Inserting a project adds it to those that are held. -/
theorem Holds.insert (h : r.Holds definitions) (hdefined : Project.ofDefinition d = .ok p)
    (hinsert : r.insert p = .ok s) : s.Holds (definitions ++ [d]) := by
  obtain ⟨projects, hprojects, hperm⟩ := h
  refine ⟨projects ++ [p], ?_, ?_⟩
  · rw [List.mapM_append, hprojects, List.mapM_cons, hdefined]
    rfl
  · unfold Registry.insert at hinsert
    split at hinsert
    · cases hinsert
    · cases hinsert
      have hplaced : (place p r.projects).Perm (p :: projects) :=
        (perm_place p r.projects).trans (hperm.cons p)
      exact hplaced.trans (List.perm_append_singleton p projects).symm

/-- A project can be inserted when its id is not yet registered. -/
theorem exists_insert (h : r.get? p.id = none) : ∃ s, r.insert p = .ok s := by
  unfold insert
  split
  · rename_i hfound
    cases hfound.symm.trans h
  · exact ⟨_, rfl⟩

/-- A project whose id is taken is refused, with both places where it is defined. -/
theorem insert_of_get? {q : Project} (h : r.get? p.id = some q) :
    r.insert p = .error (.duplicateProject p.id q.origin p.origin) := by
  unfold insert
  split
  · rename_i hfound
    cases hfound.symm.trans h
    rfl
  · rename_i hnone
    cases hnone.symm.trans h

/-- After some definitions, the project of one more is inserted. -/
theorem ofDefinitions_concat (h : ofDefinitions definitions = .ok r)
    (hdefined : Project.ofDefinition d = .ok p) :
    ofDefinitions (definitions ++ [d]) = r.insert p := by
  have hone : [d].foldlM (fun r definition => do r.insert (← Project.ofDefinition definition)) r =
      r.insert p := by
    rw [List.foldlM_cons, hdefined]
    cases hinsert : r.insert p <;> simp [bind, Except.bind, pure, Except.pure, hinsert]
  rw [ofDefinitions, List.foldlM_append, ← ofDefinitions, h, ← hone]
  rfl

/-- After some definitions, one that gives no project fails with its own error. -/
theorem ofDefinitions_concat_of_error (h : ofDefinitions definitions = .ok r)
    (hdefined : Project.ofDefinition d = .error e) :
    ofDefinitions (definitions ++ [d]) = .error e := by
  have hone : [d].foldlM (fun r definition => do r.insert (← Project.ofDefinition definition)) r =
      .error e := by
    rw [List.foldlM_cons, hdefined]
    rfl
  rw [ofDefinitions, List.foldlM_append, ← ofDefinitions, h, ← hone]
  rfl

/-- An error is not mended by what comes after. -/
theorem ofDefinitions_append_of_error (h : ofDefinitions before = .error e) :
    ofDefinitions (before ++ after) = .error e := by
  rw [ofDefinitions, List.foldlM_append, ← ofDefinitions, h]
  rfl

/-- One more definition is registered, unless it is at fault. -/
theorem ofDefinitions_concat_cases (h : ofDefinitions definitions = .ok r)
    (hholds : r.Holds definitions) :
    (∃ s, ofDefinitions (definitions ++ [d]) = .ok s ∧ s.Holds (definitions ++ [d]) ∧
        d.WellFormed ∧ d.id? ∉ definitions.map Definition.id?) ∨
      ∃ e, ofDefinitions (definitions ++ [d]) = .error e ∧ d.Fault definitions e := by
  cases hdefined : Project.ofDefinition d with
  | error e =>
      refine .inr ⟨e, ofDefinitions_concat_of_error h hdefined, ?_⟩
      rcases Project.ofDefinition_eq_error_iff.1 hdefined with ⟨hid, rfl⟩ | ⟨id, hid, hkind, rfl⟩
      · exact .noId hid
      · exact .noKind hid hkind
  | ok p =>
      obtain ⟨hformed, hid, horigin⟩ := Project.ofDefinition_eq_ok hdefined
      cases hget : r.get? p.id with
      | some q =>
          obtain ⟨hq, hsame⟩ := get?_eq_some_iff.1 hget
          obtain ⟨first, hfirst, hdefined'⟩ := hholds.mem_iff.1 hq
          obtain ⟨-, hid', horigin'⟩ := Project.ofDefinition_eq_ok hdefined'
          obtain ⟨name, hkind⟩ := hformed.kind
          refine .inr ⟨.duplicateProject p.id first.manifestPath d.manifestPath, ?_,
            .repeated hid (by simp [hkind]) hfirst (hid'.trans (congrArg some hsame))⟩
          rw [ofDefinitions_concat h hdefined, insert_of_get? hget, horigin, horigin']
      | none =>
          obtain ⟨s, hinsert⟩ := exists_insert hget
          refine .inl ⟨s, (ofDefinitions_concat h hdefined).trans hinsert,
            hholds.insert hdefined hinsert, hformed, ?_⟩
          intro hmem
          obtain ⟨other, hother, hsame⟩ := List.mem_map.1 hmem
          obtain ⟨q, -, hid', hfound⟩ := hholds.get? hother
          rw [hsame, hid, Option.some.injEq] at hid'
          rw [← hid', hget] at hfound
          cases hfound

/-- The definitions are all registered, or up to the first that is at fault. -/
theorem ofDefinitions_cases (definitions : List Definition) :
    (∃ r, ofDefinitions definitions = .ok r ∧ r.Holds definitions ∧ Registrable definitions) ∨
      ∃ before d after e, definitions = before ++ d :: after ∧ Registrable before ∧
        d.Fault before e ∧ ofDefinitions definitions = .error e := by
  induction definitions using List.reverseRecOn with
  | nil => exact .inl ⟨empty, rfl, holds_empty, ⟨by simp, by simp⟩⟩
  | append_singleton definitions d ih =>
      rcases ih with
        ⟨r, hr, hholds, hregistrable⟩ | ⟨before, first, after, e, rfl, hbefore, hfault, he⟩
      · rcases ofDefinitions_concat_cases hr hholds with
          ⟨s, hs, hholds', hformed, hfresh⟩ | ⟨e, he, hfault⟩
        · exact .inl ⟨s, hs, hholds', hregistrable.concat hformed hfresh⟩
        · exact .inr ⟨definitions, d, [], e, rfl, hregistrable, hfault, he⟩
      · exact .inr ⟨before, first, after ++ [d], e, by simp, hbefore, hfault,
          ofDefinitions_append_of_error he⟩

/-- Definitions give a registry exactly when they can be registered. -/
theorem exists_ofDefinitions_iff :
    (∃ r, ofDefinitions definitions = .ok r) ↔ Registrable definitions := by
  rcases ofDefinitions_cases definitions with
    ⟨r, hr, -, hregistrable⟩ | ⟨before, d, after, e, rfl, -, hfault, he⟩
  · exact iff_of_true ⟨r, hr⟩ hregistrable
  · refine iff_of_false ?_ fun h => h.not_fault hfault
    rintro ⟨r, hr⟩
    cases hr.symm.trans he

/-- Definitions can be registered together when none is at fault after those before it. -/
theorem registrable_iff_not_fault :
    Registrable definitions ↔
      ∀ before d after e, definitions = before ++ d :: after → ¬ d.Fault before e := by
  constructor
  · rintro h before d after e rfl
    exact h.not_fault
  · intro h
    rcases ofDefinitions_cases definitions with
      ⟨-, -, -, hregistrable⟩ | ⟨before, d, after, e, hsplit, -, hfault, -⟩
    · exact hregistrable
    · exact absurd hfault (h before d after e hsplit)

/-- A registry that was loaded holds what it was loaded from. -/
theorem holds_of_ofDefinitions (h : ofDefinitions definitions = .ok r) : r.Holds definitions := by
  rcases ofDefinitions_cases definitions with ⟨s, hs, hholds, -⟩ | ⟨_, _, _, e, -, -, -, he⟩
  · cases h.symm.trans hs
    exact hholds
  · cases h.symm.trans he

/-- The order of the definitions does not count. -/
theorem ofDefinitions_perm {others : List Definition} (h : ofDefinitions definitions = .ok r)
    (hperm : others.Perm definitions) : ofDefinitions others = .ok r := by
  obtain ⟨s, hs⟩ :=
    exists_ofDefinitions_iff.2 ((exists_ofDefinitions_iff.1 ⟨r, h⟩).perm hperm)
  have hmem : ∀ p, p ∈ r.projects ↔ p ∈ s.projects := by
    intro p
    rw [(holds_of_ofDefinitions h).mem_iff, (holds_of_ofDefinitions hs).mem_iff]
    exact exists_congr fun d => and_congr_left' hperm.mem_iff.symm
  rw [hs, eq_of_mem_iff hmem]

/-- The error is that of the first definition at fault. -/
theorem ofDefinitions_eq_error_iff :
    ofDefinitions definitions = .error e ↔
      ∃ before d after, definitions = before ++ d :: after ∧ Registrable before ∧
        d.Fault before e := by
  constructor
  · intro h
    rcases ofDefinitions_cases definitions with
      ⟨s, hs, -, -⟩ | ⟨before, d, after, e', hsplit, hbefore, hfault, he'⟩
    · cases h.symm.trans hs
    · cases h.symm.trans he'
      exact ⟨before, d, after, hsplit, hbefore, hfault⟩
  · rintro ⟨before, d, after, rfl, hbefore, hfault⟩
    obtain ⟨r, hr⟩ := exists_ofDefinitions_iff.2 hbefore
    rw [List.append_cons]
    apply ofDefinitions_append_of_error
    rcases ofDefinitions_concat_cases hr (holds_of_ofDefinitions hr) with
      ⟨s, -, -, hformed, hfresh⟩ | ⟨e', he', hfault'⟩
    · exact absurd hfault (hbefore.concat hformed hfresh).not_fault
    · rw [he', hfault.unique hbefore.distinct hfault']

/-! ## In place -/

/-- Adding a project to a registry in place. -/
def register (p : Project) : EStateM BuildError Registry Unit := do
  match (← get).insert p with
  | .ok r => set r
  | .error e => throw e

/-- Adding the projects of some definitions to a registry in place, one after another. -/
def registerAll (definitions : List Definition) : EStateM BuildError Registry Unit :=
  definitions.forM fun d =>
    match Project.ofDefinition d with
    | .ok p => register p
    | .error e => throw e

/-- Registering a project that can be inserted succeeds. -/
theorem run_register_of_ok (h : r.insert p = .ok s) : (register p).run r = .ok () s := by
  simp [register, h]

/-- Failing to add a project leaves the registry as it was. -/
theorem run_register_of_error (h : r.insert p = .error e) :
    (register p).run r = .error e r := by
  simp [register, h]

/-- Registering definitions is registering all but the last, and then the last. -/
theorem registerAll_concat (definitions : List Definition) (d : Definition) :
    registerAll (definitions ++ [d]) =
      (do registerAll definitions
          match Project.ofDefinition d with
          | .ok p => register p
          | .error e => throw e) := by
  simp [registerAll]

/-- In place, too, the definitions are registered up to the first that is at fault; those before
it stay registered. -/
theorem run_registerAll (definitions : List Definition) :
    (∃ r, ofDefinitions definitions = .ok r ∧ (registerAll definitions).run empty = .ok () r) ∨
      ∃ before d after e r, definitions = before ++ d :: after ∧ ofDefinitions before = .ok r ∧
        ofDefinitions definitions = .error e ∧ d.Fault before e ∧
        (registerAll definitions).run empty = .error e r := by
  induction definitions using List.reverseRecOn with
  | nil => exact .inl ⟨empty, rfl, rfl⟩
  | append_singleton definitions d ih =>
      rw [registerAll_concat, EStateM.run_bind]
      rcases ih with ⟨r, hr, hrun⟩ | ⟨before, first, after, e, r, hsplit, hr, he, hfault, hrun⟩
      · rw [hrun]
        have hfault : ∀ e, ofDefinitions (definitions ++ [d]) = .error e →
            d.Fault definitions e := by
          intro e he
          rcases ofDefinitions_concat_cases hr (holds_of_ofDefinitions hr) with
            ⟨s, hs, -, -, -⟩ | ⟨e', he', hfault⟩
          · cases hs.symm.trans he
          · cases he'.symm.trans he
            exact hfault
        cases hdefined : Project.ofDefinition d with
        | error e =>
            have he := ofDefinitions_concat_of_error hr hdefined
            exact .inr ⟨definitions, d, [], e, r, rfl, hr, he, hfault e he, rfl⟩
        | ok p =>
            have hfold := ofDefinitions_concat hr hdefined
            cases hinsert : r.insert p with
            | ok s => exact .inl ⟨s, hfold.trans hinsert, run_register_of_ok hinsert⟩
            | error e =>
                have he := hfold.trans hinsert
                exact .inr ⟨definitions, d, [], e, r, rfl, hr, he, hfault e he,
                  run_register_of_error hinsert⟩
      · rw [hrun]
        exact .inr ⟨before, first, after ++ [d], e, r, by simp [hsplit], hr,
          ofDefinitions_append_of_error he, hfault, rfl⟩

/-! ## All of it together -/

/-- Definitions become a registry when each gives an id that is not blank and a kind, and their
ids are different.  The registry then holds the project of each definition under its id and no
others, its ids increase by their bytes, and the order of the definitions does not count.
Otherwise the error is that of the first definition at fault.  A project that cannot be added
leaves the registry as it was, so those before the first at fault stay registered. -/
theorem ofDefinitions_exact (definitions : List Definition) :
    ((∃ r, ofDefinitions definitions = .ok r) ↔
        (∀ d ∈ definitions, d.WellFormed) ∧ (definitions.map Definition.id?).Nodup) ∧
      (∀ r, ofDefinitions definitions = .ok r →
        r.Holds definitions ∧
        (∀ d ∈ definitions,
          ∃ p, Project.ofDefinition d = .ok p ∧ d.id? = some p.id ∧ r.get? p.id = some p) ∧
        (r.ids.map Text.utf8).Pairwise (· < ·) ∧
        ∀ others, others.Perm definitions → ofDefinitions others = .ok r) ∧
      (∀ e, ofDefinitions definitions = .error e ↔
        ∃ before d after, definitions = before ++ d :: after ∧ d.Fault before e ∧
          ∀ earlier other later e', before = earlier ++ other :: later →
            ¬ other.Fault earlier e') ∧
      (∀ r s p e, (register p).run r = .error e s → s = r) ∧
      (∀ s, (registerAll definitions).run empty = .ok () s → ofDefinitions definitions = .ok s) ∧
      ∀ e s, (registerAll definitions).run empty = .error e s →
        ofDefinitions definitions = .error e ∧
          ∃ before d after, definitions = before ++ d :: after ∧ d.Fault before e ∧
            ofDefinitions before = .ok s := by
  have hrun := run_registerAll definitions
  refine ⟨exists_ofDefinitions_iff.trans (registrable_iff _), ?loaded, ?refused, ?unchanged,
    ?inPlace, ?partly⟩
  case loaded =>
    intro r hr
    have hholds := holds_of_ofDefinitions hr
    exact ⟨hholds, fun d hd => hholds.get? hd, r.pairwise_ids,
      fun others hperm => ofDefinitions_perm hr hperm⟩
  case refused =>
    intro e
    simp only [ofDefinitions_eq_error_iff, registrable_iff_not_fault, and_comm]
  case unchanged =>
    intro r s p e h
    cases hinsert : r.insert p with
    | ok t => cases (run_register_of_ok hinsert).symm.trans h
    | error e' =>
        cases (run_register_of_error hinsert).symm.trans h
        rfl
  case inPlace =>
    intro s h
    rcases hrun with ⟨r, hr, hdone⟩ | ⟨_, _, _, e, r, -, -, -, -, hdone⟩
    · cases hdone.symm.trans h
      exact hr
    · cases hdone.symm.trans h
  case partly =>
    intro e s h
    rcases hrun with ⟨r, -, hdone⟩ | ⟨before, d, after, e, r, rfl, hr, he, hfault, hdone⟩
    · cases hdone.symm.trans h
    · cases hdone.symm.trans h
      exact ⟨he, before, d, after, rfl, hfault, hr⟩

end Registry

namespace Sample

/-- A project of an editor, by its id. -/
def definitionOf (id : String) : Definition where
  root := Path.ofString "projects"
  manifestPath := Path.ofString "projects/manifest.json"
  manifest := { id := some id, kind := some "static-library" }

/-- A sample definition has its id, without the blanks around it. -/
theorem id?_definitionOf {id : String} (h : Text.isBlank id = false) :
    (definitionOf id).id? = some (Text.trim id) :=
  Definition.id?_eq_some_iff.2 ⟨id, rfl, h, rfl⟩

/-- The two sample definitions can be registered. -/
theorem registrable_pair : Registrable [definitionOf "kernel", definitionOf "viewer"] where
  wellFormed := by
    have hformed : ∀ id, Text.isBlank id = false → (definitionOf id).WellFormed :=
      fun id h => ⟨⟨id, rfl, h⟩, _, rfl⟩
    simp [hformed "kernel" (by decide), hformed "viewer" (by decide)]
  distinct := by
    rw [List.map_cons, List.map_singleton, id?_definitionOf (by decide),
      id?_definitionOf (by decide)]
    decide

/-- Blanks around an id do not make it another one. -/
theorem blank_definition_refused :
    (∃ r, Registry.ofDefinitions [definitionOf "kernel", definitionOf "viewer"] = .ok r ∧
        Registry.ofDefinitions [definitionOf "viewer", definitionOf "kernel"] = .ok r) ∧
      Registry.ofDefinitions
          [definitionOf "kernel", definitionOf "viewer", definitionOf " kernel"] =
        .error (.duplicateProject "kernel" (definitionOf "kernel").manifestPath
          (definitionOf " kernel").manifestPath) := by
  constructor
  · have hpair := Registry.ofDefinitions_exact [definitionOf "kernel", definitionOf "viewer"]
    obtain ⟨r, hr⟩ := hpair.1.2 ⟨registrable_pair.wellFormed, registrable_pair.distinct⟩
    exact ⟨r, hr, (hpair.2.1 r hr).2.2.2 _ (.swap _ _ _)⟩
  · refine ((Registry.ofDefinitions_exact _).2.2.1 _).2
      ⟨[definitionOf "kernel", definitionOf "viewer"], definitionOf " kernel", [], rfl, ?_,
        Registry.registrable_iff_not_fault.1 registrable_pair⟩
    have hkernel : (definitionOf "kernel").id? = some "kernel" := id?_definitionOf (by decide)
    have hblank : (definitionOf " kernel").id? = some "kernel" := id?_definitionOf (by decide)
    exact .repeated hblank (by simp [definitionOf]) List.mem_cons_self hkernel

end Sample

end NativeBuild
