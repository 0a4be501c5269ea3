import NativeBuild.Proofs.FileSystem.Listing

/-!
# The order of a walk

A walk lists siblings in the order of their names and every directory before what is below it.
That is the order of paths by components, however the names compare with what is written after
them, and in a tree as a disk holds it no path is listed twice.

Main definitions:

- `Met.Precedes`: the order of what is met.

Main results:

- Theorem `increasing_sortByName`: groups with different names are sorted strictly.
- Theorem `components_of_mem_listing`: what is met lies below the start.
- Theorem `increasing_listing`: a walk lists its entries in the order of their paths.
-/

namespace NativeBuild

/-! ## The order of paths -/

/-- A path stands before those below it. -/
theorem Path.sortKey_lt_of_below {p q : Path} {component : Component} {rest : List Component}
    (h : q.components = p.components ++ component :: rest) : p.sortKey < q.sortKey := by
  have hbelow : p.sortKey ++ [] < p.sortKey ++ (component :: rest).map Component.sortKey :=
    List.append_left_lt (List.nil_lt_cons _ _)
  rwa [List.append_nil, sortKey, ← List.map_append, ← h] at hbelow

/-- What lies at or below the first of two names stands before what lies at or below the
second. -/
theorem Path.sortKey_lt_of_names {p q base : Path} {first second : FileName}
    {front back : List Component} (hp : p.components = base.components ++ .name first :: front)
    (hq : q.components = base.components ++ .name second :: back) (hlt : first < second) :
    p.sortKey < q.sortKey := by
  have hname : Component.sortKey (.name first) < Component.sortKey (.name second) :=
    List.cons_lt_cons_iff.2 (.inr ⟨rfl, hlt⟩)
  rw [sortKey, sortKey, hp, hq, List.map_append, List.map_append]
  exact List.append_left_lt (List.cons_lt_cons_iff.2 (.inl hname))

/-- Groups with different names are sorted strictly. -/
theorem increasing_sortByName {α : Type} {groups : List (FileName × α)}
    (hdistinct : (groups.map (·.1)).Nodup) :
    (sortByName groups).Pairwise fun a b => a.1 < b.1 := by
  have hordered : (sortByName groups).Pairwise fun a b => decide (a.1 ≤ b.1) = true := by
    apply List.pairwise_mergeSort
    · intro a b c hab hbc
      simp only [decide_eq_true_eq] at hab hbc ⊢
      exact Std.le_trans hab hbc
    · intro a b
      simpa using Std.le_total
  have hdifferent : (sortByName groups).Pairwise fun a b => a.1 ≠ b.1 := by
    rw [← List.pairwise_map (f := Prod.fst) (R := (· ≠ ·))]
    exact ((List.mergeSort_perm groups _).map Prod.fst).nodup_iff.2 hdistinct
  refine (hordered.and hdifferent).imp fun {a b} h => ?_
  exact Std.lt_of_le_of_ne (of_decide_eq_true h.1) h.2

/-! ## The order of what is met -/

/-- Of two entries that are met, the path of the first stands before that of the second. -/
def Met.Precedes (a b : Met) : Prop :=
  ∀ v w, a = .ok v → b = .ok w → v.path.sortKey < w.path.sortKey

variable {keep : FileName → Bool} {path : Path} {node : Node}

/-- What is met lies below the start, along proper names. -/
theorem components_of_mem_listing {entry : Visited} (hproper : node.Proper)
    (h : .ok entry ∈ node.listing keep path) :
    ∃ name rest, entry.path.components = path.components ++ .name name :: rest := by
  obtain ⟨names, leaf, hpath, -, hleaf, -⟩ := at?_of_mem_listing hproper h
  rw [hpath, Path.components_below path (hproper.names hleaf)]
  cases names with
  | nil => exact ⟨entry.name, [], rfl⟩
  | cons first others => exact ⟨first, _, rfl⟩

/-- The path of an entry of a proper directory has its name at the end. -/
theorem Node.Proper.components_child {entries : Entries} (h : (Node.directory entries).Proper)
    {entry : FileName × Node} (hentry : entry ∈ entries) :
    (path.child entry.1).components = path.components ++ [.name entry.1] := by
  obtain ⟨hname, hup, hslash⟩ := (h [] entries rfl).names entry hentry
  exact path.components_child hslash hname hup

/-- What is met with an entry of a directory lies at or below the entry. -/
theorem components_of_mem_group {entries : Entries} (hproper : (Node.directory entries).Proper)
    {group : FileName × List Met} (hgroup : group ∈ listingGroups keep path entries)
    {v : Visited} (h : .ok v ∈ group.2) :
    ∃ rest, v.path.components = path.components ++ .name group.1 :: rest := by
  rw [listingGroups_eq_map] at hgroup
  obtain ⟨entry, hentry, rfl⟩ := List.mem_map.1 hgroup
  have hchild : (path.child entry.1).components = path.components ++ [.name entry.1] :=
    hproper.components_child hentry
  dsimp only at h
  split at h
  · cases h
  · rcases List.mem_cons.1 h with heq | h
    · cases heq
      exact ⟨[], hchild⟩
    · have hinner : entry.2.Proper := hproper.of_at? (hproper.at?_of_mem hentry)
      obtain ⟨name, rest, hbelow⟩ := components_of_mem_listing hinner h
      exact ⟨.name name :: rest, by rw [hbelow, hchild, List.append_assoc]; rfl⟩

/-- A walk lists its entries in the order of their paths. -/
theorem increasing_listing (hproper : node.Proper) :
    (node.listing keep path).Pairwise Met.Precedes := by
  induction node using Node.ind generalizing path with
  | file content => exact .nil
  | link target => exact .nil
  | directory entries ih =>
      rw [Node.listing]
      split
      · exact List.pairwise_singleton _ _
      · refine List.pairwise_flatMap.2 ⟨fun group hgroup => ?_, ?_⟩
        · -- With one entry: itself, then what is below it.
          rw [sortByName, List.mem_mergeSort, listingGroups_eq_map] at hgroup
          obtain ⟨entry, hentry, rfl⟩ := List.mem_map.1 hgroup
          have hinner : entry.2.Proper := hproper.of_at? (hproper.at?_of_mem hentry)
          dsimp only
          split
          · exact .nil
          · refine List.pairwise_cons.2 ⟨?_, ih entry hentry hinner⟩
            rintro met hmet v w hv rfl
            obtain ⟨name, rest, hbelow⟩ := components_of_mem_listing hinner hmet
            cases hv
            exact Path.sortKey_lt_of_below hbelow
        · -- With different entries: in the order of their names.
          have hdistinct : ((listingGroups keep path entries).map (·.1)).Nodup := by
            rw [listingGroups_eq_map, List.map_map]
            exact (hproper [] entries rfl).distinct
          refine (increasing_sortByName hdistinct).imp_of_mem ?_
          rintro first second hfirst hsecond hlt _ hv _ hw v w rfl rfl
          obtain ⟨front, hfront⟩ :=
            components_of_mem_group hproper (List.mem_mergeSort.1 hfirst) hv
          obtain ⟨back, hback⟩ :=
            components_of_mem_group hproper (List.mem_mergeSort.1 hsecond) hw
          exact Path.sortKey_lt_of_names hfront hback hlt

end NativeBuild
