import Readings.Chart.Build

/-! Chart sets and rows of chart sets through two views: the items of a set in their order and the links
to an item. Adding a link appends at most one item and one link and leaves all else as it was. -/

namespace Readings

namespace ChartSet

def noteLink (links : List Link) (link : Link) : List Link :=
  if links.contains link then links else links ++ [link]

private def noteEntry (item : Item) (link : Link) : List Entry → List Entry
  | [] => [⟨item, [link]⟩]
  | entry :: entries =>
    if entry.item = item then ⟨item, noteLink entry.links link⟩ :: entries
    else entry :: noteEntry item link entries

private def linksAmong (entries : List Entry) (item : Item) : List Link :=
  ((entries.find? (·.item == item)).map (·.links)).getD []

private theorem addLink_eq (link : Link) (entry : Entry) :
    Entry.addLink link entry = ⟨entry.item, noteLink entry.links link⟩ := by
  simp only [Entry.addLink, noteLink]
  split <;> rfl

private theorem links_eq (set : ChartSet) (item : Item) :
    set.links item = linksAmong set.entries.toList item := by
  simp only [links, linksAmong, Array.find?_toList]
  split
  next found => simp [found]
  next missing => simp [missing]

private theorem toList_insert (set : ChartSet) (item : Item) (link : Link) :
    (set.insert item link).entries.toList = noteEntry item link set.entries.toList := by
  obtain ⟨⟨entries⟩⟩ := set
  simp only [insert, find?, List.findIdx?_toArray]
  induction entries with
  | nil => simp [noteEntry]
  | cons entry entries ih =>
    by_cases same : entry.item = item
    · simp [List.findIdx?_cons, noteEntry, same, addLink_eq]
    · cases found : entries.findIdx? (·.item == item) with
      | none => simpa [List.findIdx?_cons, noteEntry, same, found] using ih
      | some index => simpa [List.findIdx?_cons, noteEntry, same, found] using ih

theorem items_insert (set : ChartSet) (item : Item) (link : Link) :
    (set.insert item link).items =
      if item ∈ set.items then set.items else set.items ++ [item] := by
  obtain ⟨⟨entries⟩⟩ := set
  simp only [items, toList_insert]
  induction entries with
  | nil => simp [noteEntry]
  | cons entry entries ih =>
    by_cases same : entry.item = item
    · simp [noteEntry, same]
    · have other : item ≠ entry.item := Ne.symm same
      simp only [noteEntry, same, ite_false, List.map_cons, ih, List.mem_cons, other, false_or]
      by_cases known : item ∈ entries.map (·.item) <;> simp [known]

theorem links_insert (set : ChartSet) (item other : Item) (link : Link) :
    (set.insert item link).links other =
      if other = item then noteLink (set.links item) link else set.links other := by
  simp only [links_eq, toList_insert]
  induction set.entries.toList with
  | nil =>
    by_cases same : item = other
    · simp [noteEntry, linksAmong, noteLink, same]
    · simp [noteEntry, linksAmong, same, Ne.symm same]
  | cons entry entries ih =>
    by_cases here : entry.item = item
    · by_cases same : item = other
      · simp [noteEntry, linksAmong, here, same]
      · simp [noteEntry, linksAmong, here, same, Ne.symm same]
    · by_cases found : entry.item = other
      · have different : other ≠ item := fun same => here (found.trans same)
        simp [noteEntry, linksAmong, found, different]
      · simpa [noteEntry, linksAmong, List.find?_cons, beq_eq_false_iff_ne.mpr here,
          beq_eq_false_iff_ne.mpr found, here] using ih

@[simp]
theorem mem_items_insert {set : ChartSet} {item other : Item} {link : Link} :
    other ∈ (set.insert item link).items ↔ other ∈ set.items ∨ other = item := by
  rw [items_insert]
  split
  next known => exact ⟨Or.inl, fun found => found.elim id fun same => same ▸ known⟩
  next => simp

@[simp]
theorem mem_noteLink {links : List Link} {link other : Link} :
    other ∈ noteLink links link ↔ other ∈ links ∨ other = link := by
  simp only [noteLink, List.contains_iff_mem]
  split
  next known => exact ⟨Or.inl, fun found => found.elim id fun same => same ▸ known⟩
  next => simp

theorem mem_links_insert {set : ChartSet} {item other : Item} {link known : Link} :
    known ∈ (set.insert item link).links other ↔
      known ∈ set.links other ∨ other = item ∧ known = link := by
  rw [links_insert]
  split
  next same => simp [same]
  next different => simp [different]

theorem items_prefix (set : ChartSet) (item : Item) (link : Link) :
    set.items <+: (set.insert item link).items := by
  rw [items_insert]
  split
  · exact List.prefix_rfl
  · exact List.prefix_append _ _

theorem nodup_items_insert {set : ChartSet} (distinct : set.items.Nodup) (item : Item) (link : Link) :
    (set.insert item link).items.Nodup := by
  rw [items_insert]
  split
  · exact distinct
  next fresh =>
    refine List.nodup_append.mpr ⟨distinct, by simp, ?_⟩
    intro known member other last same
    exact fresh (List.mem_singleton.mp last ▸ same ▸ member)

theorem nodup_links_insert {set : ChartSet} (distinct : ∀ item, (set.links item).Nodup)
    (item : Item) (link : Link) (other : Item) : ((set.insert item link).links other).Nodup := by
  rw [links_insert]
  split
  · simp only [noteLink, List.contains_iff_mem]
    split
    · exact distinct item
    next fresh =>
      refine List.nodup_append.mpr ⟨distinct item, by simp, ?_⟩
      intro known member last only same
      exact fresh (List.mem_singleton.mp only ▸ same ▸ member)
  · exact distinct other

theorem mem_items_of_link {set : ChartSet} {item : Item} {link : Link}
    (member : link ∈ set.links item) : item ∈ set.items := by
  simp only [links] at member
  split at member
  next entry found =>
    have same : entry.item = item := by simpa using Array.find?_some found
    exact List.mem_map.mpr ⟨entry, by simpa using Array.mem_of_find?_eq_some found, same⟩
  next => exact absurd member List.not_mem_nil

theorem contains_iff {set : ChartSet} {item : Item} :
    set.contains item = true ↔ item ∈ set.items := by
  simp only [contains, find?, Array.findIdx?_isSome, Array.any_eq_true',
    items, List.mem_map, Array.mem_toList_iff, beq_iff_eq]

theorem length_items (set : ChartSet) : set.items.length = set.size := by
  simp [items, size]

theorem size_insert (set : ChartSet) (item : Item) (link : Link) :
    (set.insert item link).size = if set.contains item then set.size else set.size + 1 := by
  rw [← length_items, items_insert, ← length_items]
  simp only [contains_iff]
  split <;> simp

@[simp]
theorem items_empty : ChartSet.empty.items = [] := rfl

@[simp]
theorem links_empty (item : Item) : ChartSet.empty.links item = [] := rfl

end ChartSet

/-- The set at a position of a row of sets; behind the row all sets are empty. -/
def setAt (sets : Array ChartSet) (position : Nat) : ChartSet := sets.getD position .empty

theorem setAt_of_size_le {sets : Array ChartSet} {position : Nat} (behind : sets.size ≤ position) :
    setAt sets position = .empty := by
  simp [setAt, Nat.not_lt.mpr behind]

theorem lt_size_of_items {sets : Array ChartSet} {position : Nat}
    (inhabited : (setAt sets position).items ≠ []) : position < sets.size := by
  rw [← Nat.not_le]
  intro outside
  rw [setAt_of_size_le outside] at inhabited
  exact inhabited rfl

theorem Chart.links_eq (chart : Chart) (position : Nat) (item : Item) :
    chart.links position item = (setAt chart.sets position).links item := by
  simp only [Chart.links, setAt, Array.getD_eq_getD_getElem?]
  split
  next found => simp [found]
  next missing => simp [missing]

namespace ChartState

/-- The state after a link was added, whatever the caps. -/
def put (position : Nat) (state : ChartState) (entry : Item × Link) : ChartState :=
  let sets := (state.reach position).sets
  { sets := sets.modify position fun set => set.insert entry.1 entry.2
    total := if (setAt sets position).contains entry.1 then state.total else state.total + 1 }

theorem size_reach (state : ChartState) (position : Nat) :
    (state.reach position).sets.size = max state.sets.size (position + 1) := by
  simp only [reach, Array.size_append, Array.size_replicate]
  omega

theorem getElem?_reach (state : ChartState) (position other : Nat) :
    (state.reach position).sets[other]? =
      state.sets[other]?.or (if other ≤ position then some .empty else none) := by
  simp only [reach, Array.getElem?_append, Array.getElem?_replicate]
  by_cases inside : other < state.sets.size
  · simp [inside]
  · simp only [inside, ite_false, Array.getElem?_eq_none (Nat.not_lt.mp inside), Option.none_or]
    congr 1
    apply propext
    omega

theorem getElem?_put (position : Nat) (state : ChartState) (entry : Item × Link) (other : Nat) :
    (state.put position entry).sets[other]? =
      if other = position then some ((setAt state.sets position).insert entry.1 entry.2)
      else state.sets[other]?.or (if other ≤ position then some .empty else none) := by
  simp only [put, Array.getElem?_modify, getElem?_reach]
  by_cases same : other = position
  · subst same
    simp only [ite_true, Nat.le_refl, setAt, Array.getD_eq_getD_getElem?]
    cases state.sets[other]? <;> rfl
  · simp [same, Ne.symm same]

private theorem getD_or_empty (found : Option ChartSet) (begun : Prop) [Decidable begun] :
    (found.or (if begun then some .empty else none)).getD .empty = found.getD .empty := by
  cases found with
  | none => split <;> rfl
  | some set => rfl

theorem setAt_reach (state : ChartState) (position other : Nat) :
    setAt (state.reach position).sets other = setAt state.sets other := by
  simp only [setAt, Array.getD_eq_getD_getElem?, getElem?_reach, getD_or_empty]

@[simp]
theorem setAt_put (position : Nat) (state : ChartState) (entry : Item × Link) (other : Nat) :
    setAt (state.put position entry).sets other =
      if other = position then (setAt state.sets position).insert entry.1 entry.2
      else setAt state.sets other := by
  rw [setAt, Array.getD_eq_getD_getElem?, getElem?_put]
  split
  · rfl
  · rw [getD_or_empty, setAt, Array.getD_eq_getD_getElem?]

/-- An insertion adds the link, and stops only behind it. -/
theorem insert_cases (config : ChartConfig) (position : Nat) (state : ChartState) (item : Item)
    (link : Link) :
    state.insert config position item link = .ok (state.put position (item, link)) ∨
      ∃ hit, state.insert config position item link = .error (hit, state.put position (item, link)) := by
  by_cases known : (setAt (state.reach position).sets position).contains item
  · left
    simp only [setAt] at known
    simp only [insert, put, setAt, known, ite_true]
    rfl
  · simp only [setAt, Bool.not_eq_true] at known
    simp only [insert, put, setAt, known, Bool.false_eq_true, ite_false]
    split
    · exact Or.inr ⟨_, rfl⟩
    · split
      · exact Or.inr ⟨_, rfl⟩
      · exact Or.inl rfl

def reached : Except (LimitHit × ChartState) ChartState → ChartState
  | .ok state => state
  | .error (_, state) => state

/-- Insertions add a beginning of the links given, and all of them unless a cap is exceeded. -/
theorem insertAll_spec (config : ChartConfig) (position : Nat) (state : ChartState)
    (entries : List (Item × Link)) :
    (∃ added, added <+: entries ∧
      reached (state.insertAll config position entries) = added.foldl (put position) state) ∧
    ∀ result, state.insertAll config position entries = .ok result →
      result = entries.foldl (put position) state := by
  induction entries generalizing state with
  | nil =>
    refine ⟨⟨[], List.prefix_rfl, rfl⟩, ?_⟩
    intro result done
    simp only [insertAll, Except.ok.injEq] at done
    exact done.symm
  | cons entry entries ih =>
    obtain ⟨item, link⟩ := entry
    rcases insert_cases config position state item link with inserted | ⟨hit, stopped⟩
    · obtain ⟨⟨added, start, ended⟩, complete⟩ := ih (state.put position (item, link))
      simp only [insertAll, inserted]
      exact ⟨⟨(item, link) :: added, List.cons_prefix_cons.mpr ⟨rfl, start⟩, ended⟩, complete⟩
    · simp only [insertAll, stopped]
      exact ⟨⟨[(item, link)], by simp, rfl⟩, by simp⟩

end ChartState

end Readings
