import Mathlib.Algebra.BigOperators.Group.Finset.Basic
import Mathlib.Algebra.GroupWithZero.Nat
import Mathlib.Algebra.Order.BigOperators.Group.Finset
import Mathlib.Data.Finmap
import Mathlib.Tactic.Common

namespace KeyedWrites

/-!
# Maps written key by key

Items are written into a map one after another, each under its key.  What a key
holds afterwards is the value of the last item written to it, so two orders of
the same items lead to the same map when each key is written last by the same
item; in particular when that item is the greatest of its key.

The total of a map over a measure of its values changes with a write by the
measures of the new and the old value.

All values of a map can be updated at once, which may also remove entries.
Listing the keys lists the entries, and the total is the sum over that list.

Entries added to a list unless their key is present keep the first of each key
instead.  A scan that lists the keys of accepted items lists each key once.
-/

variable {Key Value Item Rank : Type*} [DecidableEq Key]

/-- Writing what is stored already changes nothing. -/
theorem insert_eq_self_iff
    {map : Finmap fun _ : Key => Value}
    {key : Key}
    {value : Value} :
    map.insert key value = map ↔ map.lookup key = some value := by
  constructor
  · intro unchanged
    rw [← unchanged]
    exact Finmap.lookup_insert _
  · intro present
    apply Finmap.ext_lookup
    intro other
    by_cases same : other = key
    · subst same
      rw [Finmap.lookup_insert, present]
    · exact Finmap.lookup_insert_of_ne _ same

/-- What is found after a write is what was written, or was there before. -/
theorem of_lookup_insert
    {map : Finmap fun _ : Key => Value}
    {key other : Key}
    {value found : Value}
    (isFound : (map.insert key value).lookup other = some found) :
    (other = key ∧ found = value) ∨
      (other ≠ key ∧ map.lookup other = some found) := by
  by_cases same : other = key
  · subst same
    rw [Finmap.lookup_insert, Option.some_inj] at isFound
    exact Or.inl ⟨rfl, isFound.symm⟩
  · rw [Finmap.lookup_insert_of_ne _ same] at isFound
    exact Or.inr ⟨same, isFound⟩

/-- Reading with a default after a write. -/
theorem getD_lookup_insert
    (map : Finmap fun _ : Key => Value)
    (key other : Key)
    (value default : Value) :
    ((map.insert key value).lookup other).getD default =
      if other = key then
        value
      else
        (map.lookup other).getD default := by
  by_cases same : other = key
  · subst same
    rw [Finmap.lookup_insert, if_pos rfl, Option.getD_some]
  · rw [Finmap.lookup_insert_of_ne _ same, if_neg same]

/-- A write adds its key. -/
theorem keys_insert
    (map : Finmap fun _ : Key => Value)
    (key : Key)
    (value : Value) :
    (map.insert key value).keys = insert key map.keys := by
  ext other
  rw [Finset.mem_insert, Finmap.mem_keys, Finmap.mem_keys, Finmap.mem_insert]

/-- Erasing a key before it is written makes no difference. -/
theorem insert_erase
    (map : Finmap fun _ : Key => Value)
    (key : Key)
    (value : Value) :
    (map.erase key).insert key value = map.insert key value := by
  apply Finmap.ext_lookup
  intro other
  by_cases same : other = key
  · subst same
    rw [Finmap.lookup_insert, Finmap.lookup_insert]
  · rw [Finmap.lookup_insert_of_ne _ same, Finmap.lookup_insert_of_ne _ same,
      Finmap.lookup_erase_ne same]

/-- What is found after a key is erased was there before. -/
theorem lookup_of_lookup_erase
    {map : Finmap fun _ : Key => Value}
    {key other : Key}
    {found : Value}
    (isFound : (map.erase key).lookup other = some found) :
    map.lookup other = some found := by
  by_cases same : other = key
  · subst same
    rw [Finmap.lookup_erase] at isFound
    cases isFound
  · rwa [Finmap.lookup_erase_ne same] at isFound

/-- The last of the items with a key. -/
def lastFor (keyOf : Item → Key) (key : Key) (items : List Item) :
    Option Item :=
  (items.filter fun item => keyOf item = key).getLast?

/-- Write items in order. -/
def writeAll
    (keyOf : Item → Key)
    (valueOf : Item → Value)
    (map : Finmap fun _ : Key => Value)
    (items : List Item) : Finmap fun _ : Key => Value :=
  items.foldl (fun map item => map.insert (keyOf item) (valueOf item)) map

variable {keyOf : Item → Key} {valueOf : Item → Value}

/-- The last item of a key is one of the items and has the key. -/
theorem mem_of_lastFor
    {key : Key}
    {items : List Item}
    {last : Item}
    (isLast : lastFor keyOf key items = some last) :
    last ∈ items ∧ keyOf last = key := by
  have found := List.mem_of_getLast? isLast
  rw [List.mem_filter, decide_eq_true_iff] at found
  exact found

/-- A key has a last item as soon as it has an item. -/
theorem exists_lastFor
    {items : List Item}
    {item : Item}
    (listed : item ∈ items) :
    ∃ last, lastFor keyOf (keyOf item) items = some last := by
  have nonempty :
      items.filter (fun other => keyOf other = keyOf item) ≠ [] :=
    List.ne_nil_of_mem (List.mem_filter.mpr ⟨listed, decide_eq_true rfl⟩)
  exact ⟨_, List.getLast?_eq_some_getLast nonempty⟩

/-- A key that no item has is not written. -/
theorem lastFor_eq_none_iff
    {key : Key}
    {items : List Item} :
    lastFor keyOf key items = none ↔ ∀ item ∈ items, keyOf item ≠ key := by
  rw [lastFor, List.getLast?_eq_none_iff, List.filter_eq_nil_iff]
  simp only [decide_eq_true_iff, Ne]

/-- A later item of the key is the last one. -/
theorem lastFor_concat
    (key : Key)
    (items : List Item)
    (item : Item) :
    lastFor keyOf key (items ++ [item]) =
      if keyOf item = key then
        some item
      else
        lastFor keyOf key items := by
  by_cases same : keyOf item = key
  · simp [lastFor, List.filter_append, same]
  · simp [lastFor, List.filter_append, same]

/-- A key holds the value last written to it. -/
theorem lookup_writeAll
    (map : Finmap fun _ : Key => Value)
    (items : List Item)
    (key : Key) :
    (writeAll keyOf valueOf map items).lookup key =
      ((lastFor keyOf key items).map valueOf).or (map.lookup key) := by
  induction items using List.reverseRecOn with
  | nil =>
      rfl
  | append_singleton items item inductionHypothesis =>
      rw [writeAll, List.foldl_concat, ← writeAll, lastFor_concat]
      by_cases same : keyOf item = key
      · subst same
        rw [Finmap.lookup_insert, if_pos rfl, Option.map_some,
          Option.some_or]
      · rw [Finmap.lookup_insert_of_ne _ (Ne.symm same), if_neg same,
          inductionHypothesis]

/-- Lists with the same last item for each key write the same. -/
theorem writeAll_congr
    {items items' : List Item}
    (sameLast : ∀ key, lastFor keyOf key items = lastFor keyOf key items')
    (map : Finmap fun _ : Key => Value) :
    writeAll keyOf valueOf map items = writeAll keyOf valueOf map items' := by
  apply Finmap.ext_lookup
  intro key
  rw [lookup_writeAll, lookup_writeAll, sameLast]

/-- Every key is written last by an item of greatest rank. -/
def GreatestLast
    [LE Rank]
    (keyOf : Item → Key)
    (rank : Item → Rank)
    (items : List Item) : Prop :=
  ∀ key last,
    lastFor keyOf key items = some last →
    ∀ item ∈ items, keyOf item = key → rank item ≤ rank last

/-- Where the greatest is written last, it is what the key holds. -/
theorem lastFor_eq_of_greatest
    [PartialOrder Rank]
    {rank : Item → Rank}
    {items : List Item}
    (distinct :
      ∀ item ∈ items, ∀ item' ∈ items,
        keyOf item = keyOf item' → rank item = rank item' → item = item')
    (greatestLast : GreatestLast keyOf rank items)
    {greatest : Item}
    (listed : greatest ∈ items)
    (isGreatest :
      ∀ item ∈ items,
        keyOf item = keyOf greatest → rank item ≤ rank greatest) :
    lastFor keyOf (keyOf greatest) items = some greatest := by
  obtain ⟨last, isLast⟩ :
      ∃ last, lastFor keyOf (keyOf greatest) items = some last :=
    exists_lastFor listed
  obtain ⟨lastListed, sameKey⟩ := mem_of_lastFor isLast
  have sameRank : rank last = rank greatest :=
    le_antisymm
      (isGreatest last lastListed sameKey)
      (greatestLast _ last isLast greatest listed rfl)
  rw [isLast, distinct last lastListed greatest listed sameKey sameRank]

/--
Two orders of the same items, in which each key is written last by its
greatest item, agree on the last items.
-/
theorem lastFor_eq_of_perm
    [PartialOrder Rank]
    {rank : Item → Rank}
    {items items' : List Item}
    (same : items.Perm items')
    (distinct :
      ∀ item ∈ items, ∀ item' ∈ items,
        keyOf item = keyOf item' → rank item = rank item' → item = item')
    (greatestLast : GreatestLast keyOf rank items)
    (greatestLast' : GreatestLast keyOf rank items')
    (key : Key) :
    lastFor keyOf key items = lastFor keyOf key items' := by
  cases isLast' : lastFor keyOf key items' with
  | none =>
      rw [lastFor_eq_none_iff] at isLast' ⊢
      intro item listed
      exact isLast' item (same.mem_iff.mp listed)
  | some last =>
      obtain ⟨listed', rfl⟩ := mem_of_lastFor isLast'
      apply lastFor_eq_of_greatest distinct greatestLast
        (same.mem_iff.mpr listed')
      intro item listed sameKey
      exact
        greatestLast' _ last isLast' item (same.mem_iff.mp listed) sameKey

/-- The measure of what a key holds, nothing where it holds nothing. -/
def measureAt
    (measure : Value → Nat)
    (map : Finmap fun _ : Key => Value)
    (key : Key) : Nat :=
  ((map.lookup key).map measure).getD 0

/-- The sum of the measures of all values. -/
def total
    (measure : Value → Nat)
    (map : Finmap fun _ : Key => Value) : Nat :=
  map.keys.sum (measureAt measure map)

variable {measure : Value → Nat} {map : Finmap fun _ : Key => Value}

@[simp] theorem measureAt_insert (key : Key) (value : Value) :
    measureAt measure (map.insert key value) key = measure value := by
  rw [measureAt, Finmap.lookup_insert]
  rfl

theorem measureAt_insert_of_ne
    {key other : Key}
    (different : other ≠ key)
    (value : Value) :
    measureAt measure (map.insert key value) other =
      measureAt measure map other := by
  rw [measureAt, measureAt, Finmap.lookup_insert_of_ne _ different]

/-- Keys without a value add nothing to the total. -/
theorem total_eq_sum
    {keys : Finset Key}
    (within : map.keys ⊆ keys) :
    total measure map = keys.sum (measureAt measure map) := by
  apply Finset.sum_subset within
  intro key _ absent
  rw [Finmap.mem_keys, ← Finmap.lookup_eq_none] at absent
  rw [measureAt, absent]
  rfl

/-- The total is the sum over the entries, in any order. -/
theorem total_eq_entries :
    total measure map =
      (map.entries.map fun entry => measure entry.2).sum := by
  have keysOfEntries : map.keys.val = map.entries.map Sigma.fst := rfl
  rw [total, Finset.sum_eq_multiset_sum, keysOfEntries, Multiset.map_map]
  congr 1
  apply Multiset.map_congr rfl
  intro entry isEntry
  have stored : map.lookup entry.1 = some entry.2 :=
    Finmap.lookup_eq_some_iff.mpr isEntry
  rw [Function.comp_apply, measureAt, stored]
  rfl

/-- A write replaces the measure of the old value by that of the new one. -/
theorem total_insert (key : Key) (value : Value) :
    total measure (map.insert key value) + measureAt measure map key =
      total measure map + measure value := by
  have listed : key ∈ insert key map.keys := Finset.mem_insert_self _ _
  have within : map.keys ⊆ insert key map.keys := Finset.subset_insert _ _
  have within' : (map.insert key value).keys ⊆ insert key map.keys :=
    (keys_insert map key value).subset
  have others :
      ∑ other ∈ (insert key map.keys).erase key,
          measureAt measure (map.insert key value) other =
        ∑ other ∈ (insert key map.keys).erase key,
          measureAt measure map other :=
    Finset.sum_congr rfl fun other isOther =>
      measureAt_insert_of_ne (Finset.ne_of_mem_erase isOther) value
  rw [total_eq_sum within', total_eq_sum within,
    ← Finset.add_sum_erase _ _ listed, ← Finset.add_sum_erase _ _ listed,
    measureAt_insert, others]
  omega

/-- What two keys hold is part of the total. -/
theorem measureAt_add_le_total
    {key other : Key}
    (different : key ≠ other) :
    measureAt measure map key + measureAt measure map other ≤
      total measure map := by
  have within : map.keys ⊆ {key, other} ∪ map.keys :=
    Finset.subset_union_right
  rw [total_eq_sum within, ← Finset.sum_pair different]
  exact Finset.sum_le_sum_of_subset Finset.subset_union_left

/-- The entries at listed keys, in their order. -/
def itemsAt
    (map : Finmap fun _ : Key => Value)
    (keys : List Key) : List (Key × Value) :=
  keys.filterMap fun key => (map.lookup key).map fun value => (key, value)

theorem mem_itemsAt
    {keys : List Key}
    {key : Key}
    {value : Value} :
    (key, value) ∈ itemsAt map keys ↔
      key ∈ keys ∧ map.lookup key = some value := by
  rw [itemsAt, List.mem_filterMap]
  constructor
  · rintro ⟨listed, isListed, isItem⟩
    rcases Option.map_eq_some_iff.mp isItem with ⟨value', found, same⟩
    cases same
    exact ⟨isListed, found⟩
  · rintro ⟨isListed, found⟩
    exact ⟨key, isListed, by rw [found, Option.map_some]⟩

/-- The measures of the listed entries sum up to those of the keys. -/
theorem sum_itemsAt (keys : List Key) :
    ((itemsAt map keys).map fun item => measure item.2).sum =
      (keys.map (measureAt measure map)).sum := by
  induction keys with
  | nil =>
      rfl
  | cons key rest inductionHypothesis =>
      rw [itemsAt] at inductionHypothesis
      rw [itemsAt, List.filterMap_cons, List.map_cons, List.sum_cons,
        ← inductionHypothesis, measureAt]
      cases map.lookup key with
      | none =>
          exact (zero_add _).symm
      | some value =>
          rw [Option.map_some, List.map_cons, List.sum_cons, Option.map_some,
            Option.getD_some]

/-- A list of all keys, each once, lists the whole total. -/
theorem sum_itemsAt_eq_total
    {keys : List Key}
    (distinct : keys.Nodup)
    (listed : ∀ key, key ∈ keys ↔ key ∈ map.keys) :
    ((itemsAt map keys).map fun item => measure item.2).sum =
      total measure map := by
  have sameKeys : keys.toFinset = map.keys := by
    ext key
    rw [List.mem_toFinset, listed]
  rw [sum_itemsAt, total, ← sameKeys, List.sum_toFinset _ distinct]

/-- Append an entry unless its key is present. -/
def addNew (entries : List (Key × Value)) (entry : Key × Value) :
    List (Key × Value) :=
  if entries.any fun present => present.1 == entry.1 then
    entries
  else
    entries ++ [entry]

/-- An entry is appended exactly when its key is new. -/
theorem addNew_eq
    (entries : List (Key × Value))
    (entry : Key × Value) :
    addNew entries entry =
      if entry.1 ∈ entries.map Prod.fst then
        entries
      else
        entries ++ [entry] := by
  have present_iff :
      (entries.any fun present => present.1 == entry.1) = true ↔
        entry.1 ∈ entries.map Prod.fst := by
    simp only [List.any_eq_true, beq_iff_eq, List.mem_map]
  simp only [addNew, present_iff]

/-- The first entry of a new key is kept, no other is. -/
theorem mem_foldl_addNew
    {entries calls : List (Key × Value)}
    {key : Key}
    {value : Value} :
    (key, value) ∈ calls.foldl addNew entries ↔
      (key, value) ∈ entries ∨
        (key ∉ entries.map Prod.fst ∧
          calls.find? (fun call => call.1 = key) = some (key, value)) := by
  induction calls generalizing entries with
  | nil =>
      simp
  | cons call rest inductionHypothesis =>
      rw [List.foldl_cons, inductionHypothesis, addNew_eq]
      by_cases present : call.1 ∈ entries.map Prod.fst
      · rw [if_pos present]
        by_cases sameKey : call.1 = key
        · subst sameKey
          simp only [present, not_true_eq_false, false_and, or_false]
        · rw [List.find?_cons_of_neg (by simpa using sameKey)]
      · rw [if_neg present]
        by_cases sameKey : call.1 = key
        · subst sameKey
          rw [List.find?_cons_of_pos (by simp), Option.some_inj]
          simp [present, eq_comm]
        · have otherEntry : (key, value) ≠ call := by
            rintro rfl
            exact sameKey rfl
          rw [List.find?_cons_of_neg (by simpa using sameKey)]
          simp [otherEntry, Ne.symm sameKey]

/-- List the key of an accepted item unless it is listed. -/
def collectKey
    (keyOf : Item → Key)
    (accepts : Item → Bool)
    (keys : List Key)
    (item : Item) : List Key :=
  if keys.contains (keyOf item) then
    keys
  else if accepts item then
    keys ++ [keyOf item]
  else
    keys

variable {accepts : Item → Bool}

theorem mem_collectKey
    {keys : List Key}
    {item : Item}
    {key : Key} :
    key ∈ collectKey keyOf accepts keys item ↔
      key ∈ keys ∨ (accepts item = true ∧ keyOf item = key) := by
  unfold collectKey
  by_cases listed : keys.contains (keyOf item) = true
  · rw [if_pos listed]
    constructor
    · exact Or.inl
    · rintro (old | ⟨_, rfl⟩)
      · exact old
      · exact List.contains_iff_mem.mp listed
  · rw [if_neg listed]
    by_cases accepted : accepts item = true
    · simp [accepted, eq_comm]
    · simp [accepted]

theorem nodup_collectKey
    {keys : List Key}
    (distinct : keys.Nodup)
    (item : Item) :
    (collectKey keyOf accepts keys item).Nodup := by
  unfold collectKey
  by_cases listed : keys.contains (keyOf item) = true
  · rwa [if_pos listed]
  · rw [if_neg listed]
    have unlisted : keyOf item ∉ keys :=
      fun isListed => listed (List.contains_iff_mem.mpr isListed)
    split
    · exact
        List.Nodup.append distinct (List.nodup_singleton _)
          (List.disjoint_singleton.mpr unlisted)
    · exact distinct

/-- A scan lists the keys of the accepted items. -/
theorem mem_foldl_collectKey
    {keys : List Key}
    {items : List Item}
    {key : Key} :
    key ∈ items.foldl (collectKey keyOf accepts) keys ↔
      key ∈ keys ∨
        ∃ item ∈ items, accepts item = true ∧ keyOf item = key := by
  induction items generalizing keys with
  | nil =>
      simp
  | cons item rest inductionHypothesis =>
      rw [List.foldl_cons, inductionHypothesis, mem_collectKey, or_assoc,
        List.exists_mem_cons_iff]

/-- A scan lists each key once. -/
theorem nodup_foldl_collectKey
    {keys : List Key}
    (distinct : keys.Nodup)
    (items : List Item) :
    (items.foldl (collectKey keyOf accepts) keys).Nodup := by
  induction items generalizing keys with
  | nil =>
      exact distinct
  | cons item rest inductionHypothesis =>
      exact inductionHypothesis (nodup_collectKey distinct item)

section Updates

/-- Give each entry a new value, or none, in a list of entries. -/
def updateEntries
    (update : Value → Option Value)
    (entries : List (Sigma fun _ : Key => Value)) :
    List (Sigma fun _ : Key => Value) :=
  entries.filterMap fun entry =>
    (update entry.2).map fun value => ⟨entry.1, value⟩

omit [DecidableEq Key] in
/-- The keys that are left are among those before, in their order. -/
theorem keys_updateEntries
    (update : Value → Option Value)
    (entries : List (Sigma fun _ : Key => Value)) :
    (updateEntries update entries).keys.Sublist entries.keys := by
  induction entries with
  | nil =>
      exact List.Sublist.slnil
  | cons entry rest inductionHypothesis =>
      rw [updateEntries, List.filterMap_cons]
      cases update entry.2 with
      | none =>
          exact inductionHypothesis.cons _
      | some value =>
          exact inductionHypothesis.cons_cons _

/-- Each key is found with its updated value. -/
theorem dlookup_updateEntries
    (update : Value → Option Value)
    {entries : List (Sigma fun _ : Key => Value)}
    (distinct : entries.NodupKeys)
    (key : Key) :
    (updateEntries update entries).dlookup key =
      (entries.dlookup key).bind update := by
  induction entries with
  | nil =>
      rfl
  | cons entry rest inductionHypothesis =>
      rcases entry with ⟨entryKey, value⟩
      rw [List.nodupKeys_cons] at distinct
      have onRest := inductionHypothesis distinct.2
      rw [updateEntries, List.filterMap_cons]
      by_cases same : key = entryKey
      · subst same
        rw [List.dlookup_cons_eq, Option.bind_some]
        cases updated : update value with
        | none =>
            change (updateEntries update rest).dlookup key = none
            rw [List.dlookup_eq_none]
            exact fun listed =>
              distinct.1 ((keys_updateEntries update rest).subset listed)
        | some value' =>
            exact List.dlookup_cons_eq _ _ _
      · rw [List.dlookup_cons_ne _ _ same, ← onRest]
        cases update value with
        | none =>
            rfl
        | some value' =>
            exact List.dlookup_cons_ne _ _ same

/-- Give each key of a map a new value, or none. -/
def updateValues
    (update : Value → Option Value)
    (map : Finmap fun _ : Key => Value) : Finmap fun _ : Key => Value :=
  map.liftOn
    (fun entries =>
      AList.toFinmap
        { entries := updateEntries update entries.entries
          nodupKeys :=
            (keys_updateEntries update entries.entries).nodup
              entries.nodupKeys })
    (by
      intro entries entries' same
      rw [AList.toFinmap_eq]
      exact same.filterMap _)

/-- Reading after all values changed. -/
@[simp] theorem lookup_updateValues
    (update : Value → Option Value)
    (map : Finmap fun _ : Key => Value)
    (key : Key) :
    (updateValues update map).lookup key = (map.lookup key).bind update := by
  induction map using Finmap.induction_on with
  | H entries =>
      rw [updateValues, Finmap.liftOn_toFinmap, Finmap.lookup_toFinmap,
        Finmap.lookup_toFinmap]
      exact dlookup_updateEntries update entries.nodupKeys key

/-- The values change, no key comes or goes. -/
theorem keys_updateValues
    {update : Value → Option Value}
    {map : Finmap fun _ : Key => Value}
    (updates :
      ∀ key value,
        map.lookup key = some value → (update value).isSome = true) :
    (updateValues update map).keys = map.keys := by
  ext key
  rw [Finmap.mem_keys, Finmap.mem_keys, ← Finmap.lookup_isSome,
    ← Finmap.lookup_isSome, lookup_updateValues]
  cases found : map.lookup key with
  | none =>
      rfl
  | some value =>
      rw [Option.bind_some, updates key value found, Option.isSome_some]

/-- Give each key a new value; where one has none, there is no new map. -/
def tryUpdateValues
    (update : Value → Option Value)
    (map : Finmap fun _ : Key => Value) :
    Option (Finmap fun _ : Key => Value) :=
  if ∀ key ∈ map.keys, ((map.lookup key).bind update).isSome = true then
    some (updateValues update map)
  else
    none

/-- Where every value has a new one, the map has. -/
theorem tryUpdateValues_eq_some
    {update : Value → Option Value}
    {map : Finmap fun _ : Key => Value}
    (updates :
      ∀ key value,
        map.lookup key = some value → (update value).isSome = true) :
    tryUpdateValues update map = some (updateValues update map) := by
  apply if_pos
  intro key isKey
  rcases Finmap.mem_iff.mp (Finmap.mem_keys.mp isKey) with ⟨value, found⟩
  rw [found, Option.bind_some]
  exact updates key value found

end Updates

section Retain

omit [DecidableEq Key] in
/-- Entries that are left out leave the keys distinct. -/
theorem nodupKeys_filter
    (keep : Key → Value → Bool)
    {entries : List (Sigma fun _ : Key => Value)}
    (distinct : entries.NodupKeys) :
    (entries.filter fun entry => keep entry.1 entry.2).NodupKeys :=
  (List.filter_sublist.map Sigma.fst).nodup distinct

/-- Each key is found with its value if the entry passes the test. -/
theorem dlookup_filter
    (keep : Key → Value → Bool)
    {entries : List (Sigma fun _ : Key => Value)}
    (distinct : entries.NodupKeys)
    (key : Key) :
    (entries.filter fun entry => keep entry.1 entry.2).dlookup key =
      (entries.dlookup key).filter (keep key) := by
  induction entries with
  | nil =>
      rfl
  | cons entry rest inductionHypothesis =>
      rcases entry with ⟨entryKey, value⟩
      rw [List.nodupKeys_cons] at distinct
      have onRest := inductionHypothesis distinct.2
      by_cases kept : keep entryKey value = true
      · rw [List.filter_cons, if_pos kept]
        by_cases same : key = entryKey
        · subst same
          rw [List.dlookup_cons_eq, List.dlookup_cons_eq,
            Option.filter_some_pos kept]
        · rw [List.dlookup_cons_ne _ _ same, List.dlookup_cons_ne _ _ same,
            onRest]
      · rw [List.filter_cons, if_neg kept, onRest]
        by_cases same : key = entryKey
        · subst same
          rw [List.dlookup_cons_eq, List.dlookup_eq_none.mpr distinct.1,
            Option.filter_none,
            Option.filter_some_neg (Bool.eq_false_iff.mpr kept)]
        · rw [List.dlookup_cons_ne _ _ same]

/-- Keep the entries of a map that pass a test. -/
def retain
    (keep : Key → Value → Bool)
    (map : Finmap fun _ : Key => Value) : Finmap fun _ : Key => Value :=
  map.liftOn
    (fun entries =>
      AList.toFinmap
        { entries := entries.entries.filter fun entry => keep entry.1 entry.2
          nodupKeys := nodupKeys_filter keep entries.nodupKeys })
    (by
      intro entries entries' same
      rw [AList.toFinmap_eq]
      exact same.filter _)

/-- Reading after some entries were left out. -/
@[simp] theorem lookup_retain
    (keep : Key → Value → Bool)
    (map : Finmap fun _ : Key => Value)
    (key : Key) :
    (retain keep map).lookup key = (map.lookup key).filter (keep key) := by
  induction map using Finmap.induction_on with
  | H entries =>
      rw [retain, Finmap.liftOn_toFinmap, Finmap.lookup_toFinmap,
        Finmap.lookup_toFinmap]
      exact dlookup_filter keep entries.nodupKeys key

end Retain

end KeyedWrites
