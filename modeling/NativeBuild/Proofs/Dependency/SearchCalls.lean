import NativeBuild.Proofs.Dependency.HeaderClosure

/-!
# Calls of a search

Neither search goes down a structure that gets smaller: both end because each call below a project
takes in one more registered id.  To say how deep calls nest and how often a project is entered,
the searches are carried out once more with a record of their calls.  A call is given by its
*stack*: the ids of the calls that it is nested in, the outermost first, and its own id.

Main definitions:

- `Registry.Distinct`: different ids, all of them registered.
- `Registry.Search`: a search with its calls.
- `Registry.linkSearch` and `Registry.headerSearch`: the extensions of both closures, with their
  calls.
- `Registry.CallsOutside`: calls that never enter an id that was seen.
- `Registry.SearchBound`: how deep a search nests, and what it enters.

Main results:

- Theorems `result_linkSearch` and `result_headerSearch`: the record changes nothing.
- Theorems `searchBound_linkSearch` and `searchBound_headerSearch`: the bounds, for any registry,
  any registered id and any seed.
-/

namespace NativeBuild

/-- The ids for which calls are entered, each call given by its stack. -/
def enteredIds (calls : List (List String)) : List String :=
  calls.filterMap List.getLast?

@[simp] theorem enteredIds_nil : enteredIds [] = [] := rfl

@[simp] theorem enteredIds_cons (stack : List String) (id : String) (calls : List (List String)) :
    enteredIds ((stack ++ [id]) :: calls) = id :: enteredIds calls := by
  simp [enteredIds]

@[simp] theorem enteredIds_append (calls others : List (List String)) :
    enteredIds (calls ++ others) = enteredIds calls ++ enteredIds others :=
  List.filterMap_append

namespace Registry

variable {r : Registry} {id root : String} {path found : List String}

/-! ## Lists of different projects -/

/-- Different ids, all of them registered. -/
structure Distinct (r : Registry) (ids : List String) : Prop where
  nodup : ids.Nodup
  registered : ∀ q ∈ ids, q ∈ r.ids

/-- There are no more of them than projects. -/
theorem Distinct.length_le {ids : List String} (h : r.Distinct ids) : ids.length ≤ r.size := by
  have hle := h.nodup.length_le_of_subset h.registered
  rwa [Registry.ids, List.length_map] at hle

/-- A registered id may be put in front of others. -/
theorem Distinct.cons {ids : List String} (h : r.Distinct ids) (hid : id ∈ r.ids)
    (hnew : id ∉ ids) : r.Distinct (id :: ids) :=
  ⟨List.nodup_cons.2 ⟨hnew, h.nodup⟩, List.forall_mem_cons.2 ⟨hid, h.registered⟩⟩

/-- A registered id is different from no others. -/
theorem distinct_singleton (hid : id ∈ r.ids) : r.Distinct [id] :=
  Distinct.cons ⟨List.nodup_nil, by simp⟩ hid List.not_mem_nil

/-- A registered id may be put behind others. -/
theorem Distinct.concat {ids : List String} (h : r.Distinct ids) (hid : id ∈ r.ids)
    (hnew : id ∉ ids) : r.Distinct (ids ++ [id]) := by
  have hcons := h.cons hid hnew
  have hperm := List.perm_append_singleton id ids
  exact ⟨hperm.nodup_iff.2 hcons.nodup, fun q hq => hcons.registered q (hperm.mem_iff.1 hq)⟩

/-! ## Searches with their calls -/

/-- What a search ends with, and the stacks of its calls in the order in which they are
entered. -/
structure Search where
  result : EStateM.Result BuildError (List String) Unit
  calls : List (List String)

/-- A search after some calls of another. -/
def Search.after (search : Search) (calls : List (List String)) : Search :=
  { search with calls := calls ++ search.calls }

/-- Visit the dependencies of a project for the link closure, and record the calls.  The path of
the visit is the stack of the call that it belongs to. -/
def searchLinks (r : Registry) (project : String) (deps path found : List String) : Search :=
  match deps with
  | [] => ⟨.ok () found, []⟩
  | id :: rest =>
    if _hpath : id ∈ path then
      ⟨.error (.cyclicDependency (path.dropWhile (· != id) ++ [id])) found, []⟩
    else if id ∈ found then r.searchLinks project rest path found
    else
      match _hdep : r.resolve project id with
      | .error e => ⟨.error e found, []⟩
      | .ok dep =>
        match r.searchLinks dep.id dep.libs (path ++ [id]) found with
        | ⟨.error e found, calls⟩ => ⟨.error e found, (path ++ [id]) :: calls⟩
        | ⟨.ok () found, calls⟩ =>
          (r.searchLinks project rest path (found ++ [id])).after ((path ++ [id]) :: calls)
termination_by (r.missing path, deps.length)
decreasing_by
  · exact Prod.Lex.right _ (by simp)
  · exact Prod.Lex.left _ _ (missing_lt (mem_ids_of_resolve _hdep) _hpath
      (fun x hx => List.mem_append_left _ hx) (by simp))
  · exact Prod.Lex.right _ (by simp)

/-- The extension of the link closure of an id, with its calls. -/
def linkSearch (r : Registry) (id : String) (seed : List String) : Search :=
  match r.require id with
  | .error e => ⟨.error e seed, []⟩
  | .ok p => (r.searchLinks p.id p.libs [p.id] seed).after [[p.id]]

/-- Visit pending dependencies for the header closure, and record the calls.  A dependency is
pending with the stack of the call that it belongs to, which ends with the project that has it. -/
def searchHeaders (r : Registry) (root : String) (pending : List (List String × String))
    (found : List String) : Search :=
  match pending with
  | [] => ⟨.ok () found, []⟩
  | (path, id) :: rest =>
    if _hskip : id = root ∨ id ∈ found then r.searchHeaders root rest found
    else
      match _hdep : r.resolve (path.getLastD root) id with
      | .error e => ⟨.error e found, []⟩
      | .ok dep =>
        (r.searchHeaders root (dep.dependencies.map (fun next => (path ++ [id], next)) ++ rest)
          (found ++ [id])).after [path ++ [id]]
termination_by (r.missing found, pending.length)
decreasing_by
  · exact Prod.Lex.right _ (by simp)
  · exact Prod.Lex.left _ _ (missing_lt (mem_ids_of_resolve _hdep) (fun h => _hskip (.inr h))
      (fun x hx => List.mem_append_left _ hx) (by simp))

/-- The extension of the header closure of an id, with its calls. -/
def headerSearch (r : Registry) (id : String) (seed : List String) : Search :=
  match r.require id with
  | .error e => ⟨.error e seed, []⟩
  | .ok p =>
    (r.searchHeaders p.id (p.dependencies.map fun next => ([p.id], next)) seed).after [[p.id]]

/-! ## The record changes nothing -/

/-- The search that tells its calls gives what the visit of libraries gives. -/
theorem result_searchLinks (r : Registry) (project : String) (deps path found : List String) :
    (r.searchLinks project deps path found).result = r.visitLinks project deps path found := by
  fun_induction searchLinks r project deps path found with
  | case1 => rw [visitLinks_nil]
  | case2 project path found id rest hpath => rw [visitLinks_of_mem_path hpath]
  | case3 project path found id rest hpath hfound ih =>
      rw [visitLinks_of_mem_found hpath hfound, ih]
  | case4 project path found id rest hpath hfound e hdep =>
      rw [visitLinks_of_resolve_error hpath hfound hdep]
  | case5 project path found id rest hpath hfound dep hdep e after calls hinner ih =>
      rw [hinner] at ih
      rw [visitLinks_of_resolve_ok hpath hfound hdep, ← ih]
  | case6 project path found id rest hpath hfound dep hdep inner calls hinner ih ihrest =>
      rw [hinner] at ih
      rw [visitLinks_of_resolve_ok hpath hfound hdep, ← ih]
      exact ihrest

/-- The search ends as the extension of the link closure does. -/
theorem result_linkSearch (r : Registry) (id : String) (seed : List String) :
    (r.linkSearch id seed).result = r.extendLink id seed := by
  unfold linkSearch extendLink
  cases r.require id with
  | error e => rfl
  | ok p => exact r.result_searchLinks p.id p.libs [p.id] seed

/-- The search that tells its calls gives what the visit of headers gives. -/
theorem result_searchHeaders (r : Registry) (root : String)
    (pending : List (List String × String)) (found : List String) :
    (r.searchHeaders root pending found).result =
      r.visitHeaders root (pending.map fun entry => (entry.1.getLastD root, entry.2)) found := by
  fun_induction searchHeaders r root pending found with
  | case1 found => rw [List.map_nil, visitHeaders_nil]
  | case2 found path id rest hskip ih => rw [List.map_cons, visitHeaders_of_skip hskip, ih]
  | case3 found path id rest hnew e hdep =>
      rw [List.map_cons, visitHeaders_of_resolve_error hnew hdep]
  | case4 found path id rest hnew dep hdep ih =>
      obtain rfl := id_of_get? (resolve_eq_ok_iff.1 hdep).1
      rw [List.map_cons, visitHeaders_of_resolve_ok hnew hdep, Search.after, ih]
      simp [Function.comp_def]

/-- The search ends as the extension of the header closure does. -/
theorem result_headerSearch (r : Registry) (id : String) (seed : List String) :
    (r.headerSearch id seed).result = r.extendHeaders id seed := by
  unfold headerSearch extendHeaders
  cases r.require id with
  | error e => rfl
  | ok p =>
      refine (r.result_searchHeaders p.id _ seed).trans ?_
      simp [Function.comp_def]

/-! ## Calls outside what was seen -/

/-- Each of the calls has a stack of different registered ids; they enter no id that was seen,
and none twice. -/
structure CallsOutside (r : Registry) (seen : List String) (calls : List (List String)) :
    Prop where
  nesting : ∀ stack ∈ calls, r.Distinct stack
  fresh : ∀ q ∈ enteredIds calls, q ∈ r.ids ∧ q ∉ seen
  once : (enteredIds calls).Nodup

variable {seen more : List String} {calls others : List (List String)}

/-- Without calls, nothing is entered. -/
theorem callsOutside_nil (r : Registry) (seen : List String) : r.CallsOutside seen [] :=
  ⟨by simp, by simp, by simp⟩

/-- A call for an id that was not seen, and calls after it that do not enter the id again. -/
theorem CallsOutside.enter (h : r.CallsOutside more calls) (hstack : r.Distinct (path ++ [id]))
    (hnew : id ∉ seen) (hseen : ∀ q ∈ seen, q ∈ more) (hmore : id ∈ more) :
    r.CallsOutside seen ((path ++ [id]) :: calls) where
  nesting := List.forall_mem_cons.2 ⟨hstack, h.nesting⟩
  fresh := by
    rw [enteredIds_cons]
    refine List.forall_mem_cons.2 ⟨⟨hstack.registered id (by simp), hnew⟩, fun q hq => ?_⟩
    obtain ⟨hregistered, hout⟩ := h.fresh q hq
    exact ⟨hregistered, fun hmem => hout (hseen q hmem)⟩
  once := by
    rw [enteredIds_cons]
    exact List.nodup_cons.2 ⟨fun hmem => (h.fresh id hmem).2 hmore, h.once⟩

/-- Calls after others, when all that the others entered counts as seen. -/
theorem CallsOutside.append (h : r.CallsOutside seen calls) (h' : r.CallsOutside more others)
    (hseen : ∀ q ∈ seen, q ∈ more) (hentered : ∀ q ∈ enteredIds calls, q ∈ more) :
    r.CallsOutside seen (calls ++ others) where
  nesting := List.forall_mem_append.2 ⟨h.nesting, h'.nesting⟩
  fresh := by
    rw [enteredIds_append]
    refine List.forall_mem_append.2 ⟨h.fresh, fun q hq => ?_⟩
    obtain ⟨hregistered, hout⟩ := h'.fresh q hq
    exact ⟨hregistered, fun hmem => hout (hseen q hmem)⟩
  once := by
    rw [enteredIds_append]
    refine List.nodup_append.2 ⟨h.once, h'.once, ?_⟩
    rintro q hq _ hother rfl
    exact (h'.fresh q hother).2 (hentered q hq)

/-! ## Calls of the link search -/

/-- Where the search succeeds, all that was found and all that was entered is found
afterwards. -/
theorem mem_of_searchLinks {project : String} {deps after : List String}
    (h : (r.searchLinks project deps path found).result = .ok () after) {q : String}
    (hq : q ∈ found ∨ q ∈ enteredIds (r.searchLinks project deps path found).calls) :
    q ∈ after := by
  fun_induction searchLinks r project deps path found generalizing after with
  | case1 =>
      cases h
      simpa using hq
  | case2 => cases h
  | case3 project path found id rest hpath hfound ih => exact ih h hq
  | case4 => cases h
  | case5 => cases h
  | case6 project path found id rest hpath hfound dep hdep inner calls hinner ih ihrest =>
      rw [hinner] at ih
      refine ihrest h ?_
      simp only [Search.after, enteredIds_append, enteredIds_cons, List.cons_append,
        List.mem_cons, List.mem_append] at hq ⊢
      rcases hq with hq | rfl | hq | hq
      · exact .inl (.inl (ih rfl (.inl hq)))
      · exact .inl (.inr (.inl rfl))
      · exact .inl (.inl (ih rfl (.inr hq)))
      · exact .inr hq

/-- A call for an id below a path, and the calls nested in it. -/
theorem CallsOutside.nested (h : r.CallsOutside (path ++ [id] ++ found) calls)
    (hstack : r.Distinct (path ++ [id])) (hpath : id ∉ path) (hfound : id ∉ found) :
    r.CallsOutside (path ++ found) ((path ++ [id]) :: calls) := by
  refine h.enter hstack (by simp [hpath, hfound]) (fun q hq => ?_) (by simp)
  rcases List.mem_append.1 hq with hq | hq <;> simp [hq]

/-- The search enters neither an id of its path nor one that was found, and none twice. -/
theorem callsOutside_searchLinks {project : String} {deps : List String}
    (hpath : r.Distinct path) :
    r.CallsOutside (path ++ found) (r.searchLinks project deps path found).calls := by
  fun_induction searchLinks r project deps path found with
  | case1 | case2 | case4 => exact callsOutside_nil r _
  | case3 project path found id rest hmem hfound ih => exact ih hpath
  | case5 project path found id rest hmem hfound dep hdep e after calls hinner ih =>
      have hstack := hpath.concat (mem_ids_of_resolve hdep) hmem
      have hcalls := ih hstack
      rw [hinner] at hcalls
      exact hcalls.nested hstack hmem hfound
  | case6 project path found id rest hmem hfound dep hdep inner calls hinner ih ihrest =>
      have hstack := hpath.concat (mem_ids_of_resolve hdep) hmem
      have hcalls := ih hstack
      have hkept : ∀ q, q ∈ found ∨ q ∈ enteredIds calls → q ∈ inner := fun q hq =>
        mem_of_searchLinks (by rw [hinner]) (by rwa [hinner])
      rw [hinner] at hcalls
      -- What the nested calls entered is found by now, so the calls after them keep off it.
      refine (hcalls.nested hstack hmem hfound).append (ihrest hpath) (fun q hq => ?_) ?_
      · rcases List.mem_append.1 hq with hq | hq
        · simp [hq]
        · simp [hkept q (.inl hq)]
      · rw [enteredIds_cons]
        exact List.forall_mem_cons.2 ⟨by simp, fun q hq => by simp [hkept q (.inr hq)]⟩

/-! ## Calls of the header search -/

/-- The search enters neither the root nor an id that was found, and none twice, when the calls
that it goes on with are nested in different ones that were entered before. -/
theorem callsOutside_searchHeaders {pending : List (List String × String)}
    (hpending : ∀ entry ∈ pending, r.Distinct entry.1 ∧ ∀ q ∈ entry.1, q ∈ root :: found) :
    r.CallsOutside (root :: found) (r.searchHeaders root pending found).calls := by
  fun_induction searchHeaders r root pending found with
  | case1 | case3 => exact callsOutside_nil r _
  | case2 found path id rest hskip ih => exact ih (List.forall_mem_cons.1 hpending).2
  | case4 found path id rest hnew dep hdep ih =>
      obtain ⟨⟨hpath, hentered⟩, hrest⟩ := List.forall_mem_cons.1 hpending
      rw [← List.mem_cons] at hnew
      have hstack := hpath.concat (mem_ids_of_resolve hdep) fun hmem => hnew (hentered id hmem)
      have hgrown : ∀ q ∈ root :: found, q ∈ root :: (found ++ [id]) := by
        intro q hq
        rw [← List.cons_append]
        exact List.mem_append_left _ hq
      refine (ih fun entry hentry => ?_).enter hstack hnew hgrown (by simp)
      rcases List.mem_append.1 hentry with hentry | hentry
      · obtain ⟨next, -, rfl⟩ := List.mem_map.1 hentry
        refine ⟨hstack, fun q hq => ?_⟩
        rcases List.mem_append.1 hq with hq | hq
        · exact hgrown q (hentered q hq)
        · simp [List.mem_singleton.1 hq]
      · exact ⟨(hrest entry hentry).1, fun q hq => hgrown q ((hrest entry hentry).2 q hq)⟩

/-! ## Bounds -/

/-- A search nests in different registered ids only, so at most as deep as there are projects.  It
enters its id first, and after that only registered ids that are neither in the seed nor entered
before. -/
structure SearchBound (r : Registry) (id : String) (seed : List String) (search : Search) :
    Prop where
  nesting : ∀ stack ∈ search.calls, r.Distinct stack ∧ stack.length ≤ r.size
  entered : ∃ others, enteredIds search.calls = id :: others ∧ r.Distinct (id :: others) ∧
    ∀ q ∈ others, q ∉ seed

/-- The bounds hold of a search that goes on from its id with calls for other ids. -/
theorem searchBound_after {seed : List String} {search : Search} (hid : id ∈ r.ids)
    (h : r.CallsOutside (id :: seed) search.calls) :
    r.SearchBound id seed (search.after [[id]]) where
  nesting := by
    refine List.forall_mem_cons.2 ⟨?_, fun stack hstack => ?_⟩
    · exact ⟨distinct_singleton hid, (distinct_singleton hid).length_le⟩
    · exact ⟨h.nesting stack hstack, (h.nesting stack hstack).length_le⟩
  entered := by
    refine ⟨enteredIds search.calls, enteredIds_cons [] id search.calls, ?_, fun q hq hseed => ?_⟩
    · refine Distinct.cons ⟨h.once, fun q hq => (h.fresh q hq).1⟩ hid fun hmem => ?_
      exact (h.fresh id hmem).2 List.mem_cons_self
    · exact (h.fresh q hq).2 (List.mem_cons_of_mem _ hseed)

/-- The bounds of the link search. -/
theorem searchBound_linkSearch (hid : id ∈ r.ids) (seed : List String) :
    r.SearchBound id seed (r.linkSearch id seed) := by
  obtain ⟨p, hp⟩ := mem_ids_iff.1 hid
  obtain rfl := id_of_get? hp
  simp only [linkSearch, require, hp]
  exact searchBound_after hid (callsOutside_searchLinks (distinct_singleton hid))

/-- The bounds of the header search. -/
theorem searchBound_headerSearch (hid : id ∈ r.ids) (seed : List String) :
    r.SearchBound id seed (r.headerSearch id seed) := by
  obtain ⟨p, hp⟩ := mem_ids_iff.1 hid
  obtain rfl := id_of_get? hp
  simp only [headerSearch, require, hp]
  refine searchBound_after hid (callsOutside_searchHeaders fun entry hentry => ?_)
  obtain ⟨next, -, rfl⟩ := List.mem_map.1 hentry
  exact ⟨distinct_singleton hid, by simp⟩

end Registry

end NativeBuild
