import NativeBuild.Proofs.Path.Below

/-!
# What a removal leaves

Removing takes entries out of directories and changes nothing else.  So after it a path leads to
nothing that it did not lead to before, and a path that leads through what was removed leads
nowhere.  In particular, when the tree of a directory is removed, no path that goes on from the
path of the directory by names is found, whatever links there are.

Main definitions:

- `FileSystem.LeftOf`: a file system that is left of another one by removals.
- `FileSystem.Meets`: what a path is found at when a link under its last name is not followed.
- `FileSystem.Gone`: the components of a path lead nowhere.

Main results:

- Theorem `LeftOf.leads`: what paths lead to in what is left.
- Theorem `gone_of_removeTreeIfAny`: a directory that is removed is gone.
- Theorem `Gone.not_found`: below a directory that is gone nothing is found.
-/

namespace NativeBuild

/-! ## Trees that are left -/

namespace Node

/-- The node without what is in it, if it is a directory. -/
def bare : Node → Node
  | .directory _ => .directory []
  | node => node

variable {change : Entries → Entries} {node leaf : Node} {position names : List FileName}

/-- A node is a link exactly when it is one without its entries. -/
theorem bare_eq_link {target : Path} : node.bare = .link target ↔ node = .link target := by
  cases node <;> simp [bare]

/-- A node is a directory if it is one without its entries. -/
theorem exists_of_bare_eq_directory {entries : Entries} (h : node.bare = (directory entries).bare) :
    ∃ others, node = directory others := by
  cases node with
  | directory others => exact ⟨others, rfl⟩
  | file content => cases h
  | link target => cases h

/-- Where a change of entries only takes some out, what is left in the tree was there before, and
directories stay directories. -/
theorem exists_at?_of_alter
    (hchange : ∀ entries name node, Entries.get? name (change entries) = some node →
      Entries.get? name entries = some node)
    (h : (node.alter change position).at? names = some leaf) :
    ∃ other, node.at? names = some other ∧ other.bare = leaf.bare := by
  induction position generalizing node names with
  | nil =>
      cases node with
      | file content => exact ⟨leaf, h, rfl⟩
      | link target => exact ⟨leaf, h, rfl⟩
      | directory entries =>
          cases names with
          | nil =>
              cases h
              exact ⟨_, rfl, rfl⟩
          | cons name rest =>
              obtain ⟨inner, hentry, hinner⟩ := Option.bind_eq_some_iff.1 h
              exact ⟨leaf, Option.bind_eq_some_iff.2 ⟨inner, hchange _ _ _ hentry, hinner⟩, rfl⟩
  | cons first others ih =>
      cases node with
      | file content => exact ⟨leaf, h, rfl⟩
      | link target => exact ⟨leaf, h, rfl⟩
      | directory entries =>
          rw [alter] at h
          split at h
          · next inner hinner =>
              cases names with
              | nil =>
                  cases h
                  exact ⟨_, rfl, rfl⟩
              | cons name rest =>
                  by_cases hname : first = name
                  · subst hname
                    simp only [at?, Entries.get?_put_same, Option.bind_some] at h
                    obtain ⟨other, hother, hbare⟩ := ih h
                    exact ⟨other, Option.bind_eq_some_iff.2 ⟨inner, hinner, hother⟩, hbare⟩
                  · simp only [at?, Entries.get?_put_other _ _ hname] at h
                    exact ⟨leaf, h, rfl⟩
          · exact ⟨leaf, h, rfl⟩

/-- A name that is taken out of a directory is not there. -/
theorem at?_alter_erase (node : Node) (position : List FileName) (name : FileName) :
    (node.alter (Entries.erase name) position).at? (position ++ [name]) = none := by
  induction position generalizing node with
  | nil => cases node <;> simp [alter, at?]
  | cons first others ih =>
      cases node with
      | file content => rfl
      | link target => rfl
      | directory entries =>
          rw [alter]
          split
          · next inner hinner => simpa [at?] using ih inner
          · next hnone => simp [at?, hnone]

/-- A change of entries leaves a directory a directory. -/
theorem exists_alter_directory (change : Entries → Entries) (position : List FileName)
    (entries : Entries) :
    ∃ others, (directory entries).alter change position = .directory others := by
  cases position with
  | nil => exact ⟨_, rfl⟩
  | cons first others =>
      rw [alter]
      split
      · exact ⟨_, rfl⟩
      · exact ⟨_, rfl⟩

end Node

namespace FileSystem

variable {fs full : FileSystem} {position goal pieces : List FileName} {node : Node}

/-- After a change, positions are looked up in the changed tree. -/
theorem at?_alter (fs : FileSystem) (position names : List FileName)
    (change : Entries → Entries) :
    (fs.alter position change).at? names =
      ((Node.directory fs.root).alter change position).at? names := by
  obtain ⟨others, hothers⟩ := Node.exists_alter_directory change position fs.root
  rw [FileSystem.at?, alter, hothers]

/-- A change of entries does not move the current directory. -/
theorem cwd_alter (fs : FileSystem) (position : List FileName) (change : Entries → Entries) :
    (fs.alter position change).cwd = fs.cwd := by
  unfold alter
  split <;> rfl

/-- The file system is left of another one by removals: what is there was there before, and
nothing but what is in directories has changed. -/
structure LeftOf (fs full : FileSystem) : Prop where
  cwd : fs.cwd = full.cwd
  at? : ∀ {position node}, fs.at? position = some node →
    ∃ other, full.at? position = some other ∧ other.bare = node.bare

/-- A file system is left of itself. -/
theorem LeftOf.refl (fs : FileSystem) : fs.LeftOf fs :=
  ⟨rfl, fun h => ⟨_, h, rfl⟩⟩

/-- Removals may follow removals. -/
theorem LeftOf.trans {less : FileSystem} (h : less.LeftOf fs) (hfull : fs.LeftOf full) :
    less.LeftOf full := by
  refine ⟨h.cwd.trans hfull.cwd, fun hat => ?_⟩
  obtain ⟨other, hother, hbare⟩ := h.at? hat
  obtain ⟨first, hfirst, hsame⟩ := hfull.at? hother
  exact ⟨first, hfirst, hsame.trans hbare⟩

/-- What taking entries out leaves. -/
theorem leftOf_alter {change : Entries → Entries}
    (hchange : ∀ entries name node, Entries.get? name (change entries) = some node →
      Entries.get? name entries = some node) (fs : FileSystem) (position : List FileName) :
    (fs.alter position change).LeftOf fs :=
  ⟨fs.cwd_alter position change, fun h =>
    Node.exists_at?_of_alter hchange (fs.at?_alter position _ change ▸ h)⟩

/-- What emptying a directory leaves. -/
theorem leftOf_emptied (fs : FileSystem) (position : List FileName) :
    (fs.alter position fun _ => []).LeftOf fs :=
  leftOf_alter (fun _ _ _ h => by cases h) fs position

/-- What taking a name out leaves. -/
theorem leftOf_unbind (fs : FileSystem) (position : List FileName) :
    (fs.unbind position).LeftOf fs := by
  unfold unbind
  split
  · next name hname =>
      refine leftOf_alter (fun entries other node h => ?_) fs position.dropLast
      by_cases hother : name = other
      · rw [hother, Entries.get?_erase_same] at h
        cases h
      · rwa [Entries.get?_erase_other _ hother] at h
  · refine ⟨rfl, fun {names node} h => ?_⟩
    cases names with
    | nil =>
        cases h
        exact ⟨_, rfl, rfl⟩
    | cons name rest => cases h

/-- A name that was taken out is not there. -/
theorem at?_unbind (fs : FileSystem) (position : List FileName) (name : FileName) :
    (fs.unbind (position ++ [name])).at? (position ++ [name]) = none := by
  rw [unbind, List.getLast?_concat]
  dsimp only
  rw [List.dropLast_concat, at?_alter, Node.at?_alter_erase]

/-- What pieces lead to in what is left, they led to before. -/
theorem LeftOf.leads (h : fs.LeftOf full) (hleads : fs.Leads position pieces goal node) :
    ∃ other, full.Leads position pieces goal other := by
  have hdirectory : ∀ {position entries}, fs.at? position = some (.directory entries) →
      ∃ others, full.at? position = some (.directory others) := by
    intro position entries hat
    obtain ⟨other, hother, hbare⟩ := h.at? hat
    obtain ⟨others, rfl⟩ := Node.exists_of_bare_eq_directory hbare
    exact ⟨others, hother⟩
  have hentry : ∀ {position entries piece inner}, fs.at? position = some (.directory entries) →
      Entries.get? piece entries = some inner → ∃ others other,
        full.at? position = some (.directory others) ∧ Entries.get? piece others = some other ∧
          other.bare = inner.bare := by
    intro position entries piece inner hat hinner
    obtain ⟨others, hothers⟩ := hdirectory hat
    obtain ⟨other, hother, hbare⟩ := h.at? (at?_entry hat hinner)
    rw [at?_append, hothers] at hother
    exact ⟨others, other, hothers, by simpa [Node.at?] using hother, hbare⟩
  induction hleads with
  | here hat =>
      obtain ⟨other, hother, -⟩ := h.at? hat
      exact ⟨other, .here hother⟩
  | skip hat htrivial _ ih =>
      obtain ⟨others, hothers⟩ := hdirectory hat
      obtain ⟨other, hleads⟩ := ih
      exact ⟨other, .skip hothers htrivial hleads⟩
  | up hat _ ih =>
      obtain ⟨others, hothers⟩ := hdirectory hat
      obtain ⟨other, hleads⟩ := ih
      exact ⟨other, .up hothers hleads⟩
  | link hat htrivial hup hinner _ ih =>
      obtain ⟨others, found, hothers, hfound, hbare⟩ := hentry hat hinner
      obtain ⟨other, hleads⟩ := ih
      obtain rfl := Node.bare_eq_link.1 hbare
      exact ⟨other, .link hothers htrivial hup hfound hleads⟩
  | enter hat htrivial hup hinner hlink _ ih =>
      obtain ⟨others, found, hothers, hfound, hbare⟩ := hentry hat hinner
      obtain ⟨other, hleads⟩ := ih
      refine ⟨other, .enter hothers htrivial hup hfound ?_ hleads⟩
      rintro target rfl
      exact hlink target (Node.bare_eq_link.1 hbare.symm)

/-! ## Lookups that do not follow the last link -/

/-- What pieces are found at when a link under the last name is not followed.  A last piece that
names something is looked up as an entry; any other one is looked up as before. -/
inductive Meets (fs : FileSystem) (position : List FileName) :
    List FileName → List FileName → Node → Prop
  | entry {front middle : List FileName} {name : FileName} {entries : Entries} {node : Node}
      (htrivial : Path.isTrivial name = false) (hup : name ≠ [dot, dot])
      (hfront : fs.Leads position front middle (.directory entries))
      (hentry : Entries.get? name entries = some node) :
      Meets fs position (front ++ [name]) (middle ++ [name]) node
  | nameless {pieces goal : List FileName} {node : Node}
      (hlast : ∀ name, pieces.getLast? = some name → Path.isTrivial name = true ∨ name = [dot, dot])
      (h : fs.Leads position pieces goal node) : Meets fs position pieces goal node

/-- What is met from another position is met after one more piece in front, where the piece leads
there; some more pieces may stand for it. -/
theorem Meets.step {piece : FileName} {next : List FileName} (before : List FileName)
    (h : fs.Meets next (before ++ pieces) goal node)
    (hstep : ∀ {rest goal node}, fs.Leads next (before ++ rest) goal node →
      fs.Leads position (piece :: rest) goal node)
    (hlast : pieces = [] → before = [] ∧ (Path.isTrivial piece = true ∨ piece = [dot, dot])) :
    fs.Meets position (piece :: pieces) goal node := by
  generalize hall : before ++ pieces = all at h
  rcases List.eq_nil_or_concat pieces with rfl | ⟨others, last, rfl⟩
  · obtain ⟨rfl, hpiece⟩ := hlast rfl
    cases h with
    | entry => simp at hall
    | nameless _ h =>
        subst hall
        refine .nameless (fun name hname => ?_) (hstep h)
        cases hname
        exact hpiece
  · rw [List.concat_eq_append, ← List.append_assoc] at hall
    cases h with
    | entry htrivial hup hfront hentry =>
        obtain ⟨rfl, hname⟩ := List.append_inj' hall rfl
        obtain rfl := List.singleton_inj.1 hname
        rw [List.concat_eq_append, ← List.cons_append]
        exact .entry htrivial hup (hstep hfront) hentry
    | nameless hlast h =>
        subst hall
        rw [List.append_assoc] at h
        rw [List.concat_eq_append]
        refine .nameless (fun name hname => hlast name ?_) (hstep h)
        rw [List.getLast?_concat]
        rwa [← List.cons_append, List.getLast?_concat] at hname

/-- A walk that does not follow the last link meets what it ends at, when those behind other links
do. -/
theorem meets_of_walk {purpose : Purpose} (hpurpose : purpose.follows = false)
    {expand : List FileName → List FileName → Except Fault Location}
    (hexpand : ∀ position pieces, expand position pieces = .ok (.present goal node) →
      fs.Meets position pieces goal node)
    (h : fs.walk purpose expand position pieces = .ok (.present goal node)) :
    fs.Meets position pieces goal node := by
  induction pieces generalizing position with
  | nil =>
      rw [walk] at h
      split at h
      · next found hat =>
          cases h
          exact .nameless (by simp) (.here hat)
      · cases h
  | cons piece rest ih =>
      have hstep := fs.walkStep purpose expand position piece rest
      generalize fs.walk purpose expand position (piece :: rest) = found at h hstep
      cases hstep with
      | skip hat htrivial =>
          exact Meets.step [] (ih h) (.skip hat htrivial) fun _ => ⟨rfl, .inl htrivial⟩
      | up hat => exact Meets.step [] (ih h) (.up hat) fun _ => ⟨rfl, .inr rfl⟩
      | stay hat htrivial hup hentry hrest =>
          subst hrest
          cases h
          exact .entry htrivial hup (.here hat) hentry
      | link hat htrivial hup hentry hfollowed =>
          refine Meets.step _ (hexpand _ _ h) (.link hat htrivial hup hentry) fun hnil => ?_
          cases hpurpose.symm.trans (hfollowed hnil)
      | enter hat htrivial hup hentry hlink =>
          by_cases hrest : rest = []
          · subst hrest
            rw [walk, at?_entry hat hentry] at h
            cases h
            exact .entry htrivial hup (.here hat) hentry
          · exact Meets.step [] (ih h) (.enter hat htrivial hup hentry hlink)
              fun hnil => absurd hnil hrest
      | free => cases h
      | lost => cases h
      | fault => cases h
      | nowhere => cases h

/-- What is resolved without following the last link is met. -/
theorem meets_of_resolve {purpose : Purpose} (hpurpose : purpose.follows = false) {links : Nat}
    (h : fs.resolve purpose links position pieces = .ok (.present goal node)) :
    fs.Meets position pieces goal node := by
  induction links generalizing position pieces with
  | zero => exact meets_of_walk hpurpose (fun _ _ hnone => by cases hnone) h
  | succ links ih => exact meets_of_walk hpurpose (fun _ _ hlink => ih hlink) h

/-- Looking up a path resolves its pieces, where no slashes at its end are to be cut off. -/
theorem locate_eq {purpose : Purpose} {path : Path}
    (hslash : purpose = .directory → path.withoutLastSlashes = path) :
    fs.locate purpose path =
      if path.bytes = [] then .error .notFound
      else if 0 ∈ path.bytes then .error .zeroByte
      else if maxPath < path.bytes.length then .error .nameTooLong
      else fs.resolve purpose maxLinks (fs.start path) (Path.pieces path.bytes) := by
  have hpath : (if purpose = .directory then path.withoutLastSlashes else path) = path := by
    split
    · next hdirectory => exact hslash hdirectory
    · rfl
  rw [locate, hpath]
  rfl

/-- A path that is found without following its last link meets what it is found at. -/
theorem meets_of_locate {purpose : Purpose} (hpurpose : purpose.follows = false) {path : Path}
    (hslash : purpose = .directory → path.withoutLastSlashes = path)
    (h : fs.locate purpose path = .ok (.present goal node)) :
    fs.Meets (fs.start path) (Path.pieces path.bytes) goal node := by
  rw [locate_eq hslash] at h
  split at h
  · cases h
  · split at h
    · cases h
    · split at h
      · cases h
      · exact meets_of_resolve hpurpose h

/-! ## Lookups that find nothing -/

/-- A lookup finds nothing: the name is free, or there is no place for it. -/
def Missing (found : Except Fault Location) : Prop :=
  found = .error .notFound ∨ ∃ directory name, found = .ok (.absent directory name)

/-- What leads somewhere starts at a node. -/
theorem Leads.exists_at? (h : fs.Leads position pieces goal node) :
    ∃ found, fs.at? position = some found := by
  cases h <;> exact ⟨_, ‹_›⟩

/-- A name that leads somewhere has an entry. -/
theorem Leads.ne_none {piece : FileName} {rest : List FileName} {entries : Entries}
    (h : fs.Leads position (piece :: rest) goal node)
    (hat : fs.at? position = some (.directory entries)) (htrivial : Path.isTrivial piece = false)
    (hup : piece ≠ [dot, dot]) : Entries.get? piece entries ≠ none := by
  rcases h.name_cases hat htrivial hup with ⟨target, hentry, -⟩ | ⟨inner, hentry, -⟩
  · simp [hentry]
  · simp [hentry]

/-- Where a walk finds nothing, its pieces lead nowhere, and they do not when those that name
nothing are left out either. -/
theorem not_leads_of_walk {purpose : Purpose}
    {expand : List FileName → List FileName → Except Fault Location}
    (hexpand : ∀ {position pieces rest goal node}, Missing (expand position pieces) →
      Trims pieces rest → ¬ fs.Leads position rest goal node)
    {rest : List FileName} (h : Missing (fs.walk purpose expand position pieces))
    (htrims : Trims pieces rest) : ¬ fs.Leads position rest goal node := by
  intro hleads
  induction pieces generalizing position rest with
  | nil =>
      obtain ⟨found, hat⟩ := hleads.exists_at?
      simp [walk, hat, Missing] at h
  | cons piece tail ih =>
      have hstep := fs.walkStep purpose expand position piece tail
      generalize fs.walk purpose expand position (piece :: tail) = found at h hstep
      cases hstep with
      | skip hat htrivial =>
          cases htrims with
          | drop _ htrims => exact ih h htrims hleads
          | keep _ htrims => exact ih h htrims (hleads.of_skip htrivial)
      | up hat =>
          obtain ⟨more, rfl, htail⟩ := htrims.of_name rfl
          exact ih h htail hleads.of_up
      | stay => simp [Missing] at h
      | link hat htrivial hup hentry =>
          obtain ⟨more, rfl, htail⟩ := htrims.of_name htrivial
          rcases hleads.name_cases hat htrivial hup with ⟨_, hother, hleads⟩ | ⟨_, hother, hlink, -⟩
          · cases hentry.symm.trans hother
            exact hexpand h (htail.append _) hleads
          · cases hentry.symm.trans hother
            exact hlink _ rfl
      | enter hat htrivial hup hentry hlink =>
          obtain ⟨more, rfl, htail⟩ := htrims.of_name htrivial
          rcases hleads.name_cases hat htrivial hup with ⟨_, hother, -⟩ | ⟨-, -, -, hleads⟩
          · cases hentry.symm.trans hother
            exact hlink _ rfl
          · exact ih h htail hleads
      | free hat htrivial hup hentry =>
          obtain ⟨more, rfl, -⟩ := htrims.of_name htrivial
          exact hleads.ne_none hat htrivial hup hentry
      | lost hat htrivial hup hentry =>
          obtain ⟨more, rfl, -⟩ := htrims.of_name htrivial
          exact hleads.ne_none hat htrivial hup hentry
      | fault hfault => simp [Missing, hfault] at h
      | nowhere hnone =>
          obtain ⟨found, hat⟩ := hleads.exists_at?
          cases hnone.symm.trans hat

/-- Pieces that resolve to nothing lead nowhere. -/
theorem not_leads_of_resolve {purpose : Purpose} {links : Nat} {rest : List FileName}
    (h : Missing (fs.resolve purpose links position pieces)) (htrims : Trims pieces rest) :
    ¬ fs.Leads position rest goal node := by
  induction links generalizing position pieces rest goal node with
  | zero => exact not_leads_of_walk (fun hnone _ => by simp [Missing] at hnone) h htrims
  | succ links ih => exact not_leads_of_walk (fun hlink htrims => ih hlink htrims) h htrims

/-! ## What is gone -/

/-- The components of a path lead nowhere. -/
def Gone (fs : FileSystem) (path : Path) : Prop :=
  ∀ goal node, ¬ fs.Leads (fs.start path) (path.components.filterMap Component.piece?) goal node

variable {path directory : Path} {name : FileName} {after : FileSystem}

/-- Removals do not change where a path starts. -/
theorem LeftOf.start_eq (h : fs.LeftOf full) (path : Path) : fs.start path = full.start path := by
  rw [start, start, h.cwd]

/-- What is gone stays so when more is removed. -/
theorem Gone.leftOf (hgone : full.Gone path) (h : fs.LeftOf full) : fs.Gone path := by
  intro goal node hleads
  rw [h.start_eq] at hleads
  obtain ⟨other, hother⟩ := h.leads hleads
  exact hgone goal other hother

/-- A path of which nothing is found is gone. -/
theorem gone_of_locate {purpose : Purpose} (hnonempty : path.bytes ≠ [])
    (hslash : purpose = .directory → path.withoutLastSlashes = path)
    (h : Missing (fs.locate purpose path)) : fs.Gone path := by
  intro goal node hleads
  rw [← Path.filter_pieces] at hleads
  rw [locate_eq hslash, if_neg hnonempty] at h
  split at h
  · simp [Missing] at h
  · split at h
    · simp [Missing] at h
    · exact not_leads_of_resolve h (trims_filter _) hleads

/-- Pieces in two parts lead through where the first ones lead. -/
theorem Leads.split {front back : List FileName}
    (h : fs.Leads position (front ++ back) goal node) :
    ∃ middle inner, fs.Leads position front middle inner ∧ fs.Leads middle back goal node := by
  generalize hall : front ++ back = all at h
  induction h generalizing front with
  | here hat =>
      obtain ⟨rfl, rfl⟩ := List.append_eq_nil_iff.1 hall
      exact ⟨_, _, .here hat, .here hat⟩
  | skip hat htrivial h ih =>
      rcases List.append_eq_cons_iff.1 hall with ⟨rfl, rfl⟩ | ⟨others, rfl, rfl⟩
      · exact ⟨_, _, .here hat, .skip hat htrivial h⟩
      · obtain ⟨middle, inner, hfront, hback⟩ := ih rfl
        exact ⟨middle, inner, .skip hat htrivial hfront, hback⟩
  | up hat h ih =>
      rcases List.append_eq_cons_iff.1 hall with ⟨rfl, rfl⟩ | ⟨others, rfl, rfl⟩
      · exact ⟨_, _, .here hat, .up hat h⟩
      · obtain ⟨middle, inner, hfront, hback⟩ := ih rfl
        exact ⟨middle, inner, .up hat hfront, hback⟩
  | link hat htrivial hup hentry h ih =>
      rcases List.append_eq_cons_iff.1 hall with ⟨rfl, rfl⟩ | ⟨others, rfl, rfl⟩
      · exact ⟨_, _, .here hat, .link hat htrivial hup hentry h⟩
      · obtain ⟨middle, inner, hfront, hback⟩ := ih (List.append_assoc _ _ _)
        exact ⟨middle, inner, .link hat htrivial hup hentry hfront, hback⟩
  | enter hat htrivial hup hentry hlink h ih =>
      rcases List.append_eq_cons_iff.1 hall with ⟨rfl, rfl⟩ | ⟨others, rfl, rfl⟩
      · exact ⟨_, _, .here hat, .enter hat htrivial hup hentry hlink h⟩
      · obtain ⟨middle, inner, hfront, hback⟩ := ih rfl
        exact ⟨middle, inner, .enter hat htrivial hup hentry hlink hfront, hback⟩

/-- The entry of a name at the end of a path is gone when it is taken out of where it was met. -/
theorem gone_of_unbind {front : List FileName} (hpieces : Path.pieces path.bytes = front ++ [name])
    (hname : name.Proper)
    (hmeets : fs.Meets (fs.start path) (Path.pieces path.bytes) goal node) :
    (fs.unbind goal).Gone path := by
  intro last leaf hleads
  have hleft := fs.leftOf_unbind goal
  rw [← Path.filter_pieces, hleft.start_eq, hpieces, List.filter_append,
    List.filter_cons_of_pos (by simp [hname.names]), List.filter_nil] at hleads
  generalize hall : Path.pieces path.bytes = all at hmeets
  cases hmeets with
  | nameless hlast h =>
      rcases hlast name (by rw [← hall, hpieces, List.getLast?_concat]) with hnone | hup
      · cases hname.names.symm.trans hnone
      · exact absurd hup hname.notUp
  | @entry others middle other entries node htrivial hup hfront hentry =>
      obtain ⟨rfl, heq⟩ := List.append_inj' (hpieces.symm.trans hall) rfl
      obtain rfl := List.singleton_inj.1 heq
      obtain ⟨place, inner, hplace, hrest⟩ := hleads.split
      -- The directory that held the name is still the one that the pieces before it lead to.
      obtain ⟨found, hfound⟩ := hleft.leads hplace
      obtain ⟨rfl, -⟩ := hfound.unique (hfront.trim (trims_filter _))
      obtain ⟨above, hat⟩ : ∃ above, (fs.unbind (place ++ [name])).at? place =
          some (.directory above) := by
        cases hrest <;> exact ⟨_, ‹_›⟩
      have hnone := fs.at?_unbind place name
      rcases hrest.name_cases hat hname.names hname.notUp with ⟨target, hget, -⟩ | ⟨entry, hget, -⟩
      · cases hnone.symm.trans (at?_entry hat hget)
      · cases hnone.symm.trans (at?_entry hat hget)

/-- After a directory entry is removed by its path it is gone, and nothing else has changed. -/
theorem gone_of_removeDirectory (hname : name.Proper)
    (h : removeDirectory (directory.child name) fs = .ok () after) :
    after.LeftOf fs ∧ after.Gone (directory.child name) := by
  obtain ⟨front, hpieces⟩ := directory.pieces_child hname.noSlash
  unfold removeDirectory at h
  split at h
  · next goal entries hlocate =>
      split at h
      · cases h
      · cases h
        have hmeets := meets_of_locate rfl
          (fun _ => (directory.unslashed_child hname).withoutLastSlashes) hlocate
        exact ⟨fs.leftOf_unbind goal, gone_of_unbind hpieces hname hmeets⟩
  · cases h
  · cases h
  · cases h

/-- A removal of a directory that finds none. -/
theorem missing_of_removeDirectory (h : removeDirectory path fs = .error .notFound after) :
    after = fs ∧ Missing (fs.locate .directory path) := by
  unfold removeDirectory at h
  split at h
  · split at h <;> cases h
  · cases h
  · next place name hlocate =>
      cases h
      exact ⟨rfl, .inr ⟨_, _, hlocate⟩⟩
  · next fault hlocate =>
      cases h
      exact ⟨rfl, .inl hlocate⟩

/-- After the tree of an entry is removed the entry is gone, and nothing was put anywhere. -/
theorem gone_of_removeTreeIfAny (hname : name.Proper)
    (h : removeTreeIfAny (directory.child name) fs = .ok () after) :
    after.LeftOf fs ∧ after.Gone (directory.child name) := by
  obtain ⟨front, hpieces⟩ := directory.pieces_child hname.noSlash
  have hwritten := directory.unslashed_child hname
  unfold removeTreeIfAny at h
  split at h
  · next gone hnone =>
      cases h
      unfold removeTree at hnone
      split at hnone
      · next goal entries hlocate =>
          obtain ⟨rfl, hmissing⟩ := missing_of_removeDirectory hnone
          exact ⟨fs.leftOf_emptied goal,
            gone_of_locate hwritten.1 (fun _ => hwritten.withoutLastSlashes) hmissing⟩
      · cases hnone
      · cases hnone
      · next place other hlocate =>
          cases hnone
          exact ⟨.refl fs, gone_of_locate hwritten.1 (by simp) (.inr ⟨_, _, hlocate⟩)⟩
      · next fault hlocate =>
          cases hnone
          exact ⟨.refl fs, gone_of_locate hwritten.1 (by simp) (.inl hlocate)⟩
  · unfold removeTree at h
    split at h
    · next goal entries hlocate =>
        obtain ⟨hleft, hgone⟩ := gone_of_removeDirectory hname h
        exact ⟨hleft.trans (fs.leftOf_emptied goal), hgone⟩
    · next goal target hlocate =>
        cases h
        have hmeets := meets_of_locate rfl (by simp) hlocate
        exact ⟨fs.leftOf_unbind goal, gone_of_unbind hpieces hname hmeets⟩
    · cases h
    · cases h
    · cases h

/-- Below a directory that is gone, nothing is found. -/
theorem Gone.not_found (hgone : fs.Gone directory) (hbelow : path.StrictlyBelow directory)
    (goal : List FileName) (node : Node) : fs.locate .entry path ≠ .ok (.present goal node) := by
  intro hlocate
  obtain ⟨names, hne, hcomponents⟩ := hbelow
  have hstart : fs.start path = fs.start directory := by
    refine FileSystem.start_eq ?_
    rw [hcomponents]
    cases directory.components with
    | nil => cases names <;> simp
    | cons first rest => rfl
  have hpieces := Path.filter_pieces path
  rw [hcomponents, List.filterMap_append, filterMap_piece?_names] at hpieces
  -- However the path is found, its components lead through those of the directory.
  have hthrough : ∀ {more goal node}, ¬ fs.Leads (fs.start path)
      (directory.components.filterMap Component.piece? ++ more) goal node := by
    intro more goal node hleads
    obtain ⟨middle, inner, hfront, -⟩ := hleads.split
    exact hgone middle inner (hstart ▸ hfront)
  generalize hall : Path.pieces path.bytes = all at hpieces
  have hmeets := meets_of_locate rfl (by simp) hlocate
  rw [hall] at hmeets
  cases hmeets with
  | nameless hlast h => exact hthrough (hpieces ▸ h.trim (trims_filter _))
  | @entry front middle name entries node htrivial hup hfront hentry =>
      obtain ⟨init, last, rfl⟩ : ∃ init last, names = init ++ [last] := by
        rcases List.eq_nil_or_concat names with hnil | ⟨init, last, hlast⟩
        · exact absurd hnil hne
        · exact ⟨init, last, by rw [hlast, List.concat_eq_append]⟩
      rw [List.filter_append, List.filter_cons_of_pos (by simp [htrivial]), List.filter_nil,
        ← List.append_assoc] at hpieces
      obtain ⟨hfiltered, -⟩ := List.append_inj' hpieces rfl
      exact hthrough (hfiltered ▸ hfront.trim (trims_filter _))

end FileSystem

end NativeBuild
