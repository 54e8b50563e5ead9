/-!
# Insertion-ordered dictionaries

A `Dict α` is a list of entries with pairwise distinct keys, in the order
the keys were first inserted. Writing to a present key keeps its position,
and the distinctness of the keys is part of the type, so every function
that yields a `Dict` keeps it.
-/

namespace NodeFlow

/-! ## Entries

The operations on raw lists of entries; a JSON object is such a list. -/

namespace Entries

variable {α : Type}

/-- The keys of a list of entries, in order. -/
def keys (es : List (String × α)) : List String := es.map Prod.fst

/-- The value of the first entry with the given key. -/
def get? : List (String × α) → String → Option α
  | [], _ => none
  | (k, v) :: rest, key => if k = key then some v else get? rest key

/-- Overwrites the value at a present key, or appends a new entry. -/
def put : List (String × α) → String → α → List (String × α)
  | [], key, value => [(key, value)]
  | (k, v) :: rest, key, value =>
    if k = key then (k, value) :: rest else (k, v) :: put rest key value

/-- The entries whose key is not the given one. -/
def remove (es : List (String × α)) (key : String) : List (String × α) :=
  es.filter fun e => e.1 ≠ key

@[simp] theorem get?_nil (key : String) : get? ([] : List (String × α)) key = none := rfl

theorem get?_cons (e : String × α) (es : List (String × α)) (key : String) :
    get? (e :: es) key = if e.1 = key then some e.2 else get? es key := rfl

/-- A key is found exactly when it is among the keys. -/
theorem isSome_get? (es : List (String × α)) (key : String) :
    (get? es key).isSome ↔ key ∈ keys es := by
  induction es with
  | nil => simp [keys]
  | cons e es ih =>
    rw [get?_cons]
    by_cases h : e.1 = key
    · simp [h, keys]
    · have h' : key ≠ e.1 := fun he => h he.symm
      simp only [keys] at ih
      simp [h, h', keys, ih]

theorem get?_map {β : Type} (es : List (String × α)) (f : String → α → β) (key : String) :
    get? (es.map fun e => (e.1, f e.1 e.2)) key = (get? es key).map (f key) := by
  induction es with
  | nil => rfl
  | cons e es ih =>
    rw [List.map_cons, get?_cons, get?_cons, ih]
    by_cases h : e.1 = key
    · subst h
      simp
    · simp [h]

/-- What a write does to later reads. -/
theorem get?_put (es : List (String × α)) (key key' : String) (value : α) :
    get? (put es key value) key' = if key = key' then some value else get? es key' := by
  induction es with
  | nil => rfl
  | cons e es ih =>
    obtain ⟨k, v⟩ := e
    by_cases h : k = key
    · subst h
      by_cases h' : k = key' <;> simp [put, get?, h']
    · by_cases h' : k = key'
      · subst h'
        have h'' : ¬ key = k := fun he => h he.symm
        simp [put, get?, h, h'']
      · simp [put, get?, h, h', ih]

/-- A write keeps the keys in place; a new key comes last. -/
theorem keys_put (es : List (String × α)) (key : String) (value : α) :
    keys (put es key value) = if key ∈ keys es then keys es else keys es ++ [key] := by
  induction es with
  | nil => simp [put, keys]
  | cons e es ih =>
    obtain ⟨k, v⟩ := e
    by_cases h : k = key
    · subst h
      simp [put, keys]
    · have h' : key ≠ k := fun he => h he.symm
      simp only [keys] at ih
      by_cases hm : key ∈ es.map Prod.fst
      · simp [put, keys, h, h', hm, ih]
      · simp [put, keys, h, h', hm, ih]

theorem nodup_keys_put {es : List (String × α)} (h : (keys es).Nodup) (key : String) (value : α) :
    (keys (put es key value)).Nodup := by
  rw [keys_put]
  split
  · exact h
  · next hn =>
    rw [List.nodup_append]
    refine ⟨h, by simp, ?_⟩
    intro a ha b hb
    simp only [List.mem_singleton] at hb
    subst hb
    exact fun he => hn (he ▸ ha)

theorem keys_filter_sublist (es : List (String × α)) (p : String × α → Bool) :
    (keys (es.filter p)).Sublist (keys es) :=
  List.filter_sublist.map _

@[simp] theorem keys_append (es fs : List (String × α)) : keys (es ++ fs) = keys es ++ keys fs := by
  simp [keys]

theorem mem_keys_of_mem {es : List (String × α)} {e : String × α} (h : e ∈ es) : e.1 ∈ keys es :=
  List.mem_map_of_mem h

theorem mem_of_get?_eq_some {es : List (String × α)} {key : String} {v : α}
    (h : get? es key = some v) : (key, v) ∈ es := by
  induction es with
  | nil => simp at h
  | cons e es ih =>
    obtain ⟨k, w⟩ := e
    rw [get?_cons] at h
    by_cases hk : k = key
    · obtain rfl : w = v := by simpa [hk] using h
      simp [hk]
    · exact List.mem_cons_of_mem _ (ih (by simpa [hk] using h))

/-- Where no key occurs twice, looking a key up finds its entry. -/
theorem get?_eq_some_iff {es : List (String × α)} (h : (keys es).Nodup) {key : String} {v : α} :
    get? es key = some v ↔ (key, v) ∈ es := by
  induction es with
  | nil => simp
  | cons e es ih =>
    obtain ⟨k, w⟩ := e
    have hk : k ∉ keys es ∧ (keys es).Nodup := by simpa [keys] using h
    rw [get?_cons, List.mem_cons]
    by_cases hkey : k = key
    · subst hkey
      have hnot : (k, v) ∉ es := fun hm => hk.1 (mem_keys_of_mem hm)
      simp [hnot, eq_comm]
    · have hne : (key, v) ≠ (k, w) := fun he => hkey (congrArg Prod.fst he).symm
      simp [hkey, hne, ih hk.2]

/-- Where no key occurs twice, the entries with a key are the one that is found, if any. -/
theorem map_filter_key {es : List (String × α)} (h : (keys es).Nodup) (key : String) :
    (es.filter fun e => e.1 = key).map Prod.snd = (get? es key).toList := by
  induction es with
  | nil => rfl
  | cons e es ih =>
    obtain ⟨k, v⟩ := e
    have hk : k ∉ keys es ∧ (keys es).Nodup := by simpa [keys] using h
    rw [get?_cons]
    by_cases he : k = key
    · subst he
      have hnone : es.filter (fun e => e.1 = k) = [] := by
        refine List.filter_eq_nil_iff.2 fun e hm => ?_
        have hne : e.1 ≠ k := fun heq => hk.1 (heq ▸ mem_keys_of_mem hm)
        simpa using hne
      simp [hnone]
    · simp [he, ih hk.2]

theorem get?_eq_none_iff {es : List (String × α)} {key : String} :
    get? es key = none ↔ key ∉ keys es := by
  rw [← isSome_get?, Bool.not_eq_true, Option.isSome_eq_false_iff, Option.isNone_iff_eq_none]

/-- The entries in front decide, where they have the key. -/
theorem get?_append (es fs : List (String × α)) (key : String) :
    get? (es ++ fs) key = (get? es key).or (get? fs key) := by
  induction es with
  | nil => simp
  | cons e es ih =>
    rw [List.cons_append, get?_cons, get?_cons, ih]
    by_cases h : e.1 = key <;> simp [h]

/-- A write under a new key appends an entry. -/
theorem put_of_not_mem {es : List (String × α)} {key : String} (h : key ∉ keys es) (value : α) :
    put es key value = es ++ [(key, value)] := by
  induction es with
  | nil => rfl
  | cons e es ih =>
    obtain ⟨k, w⟩ := e
    have hk : key ≠ k ∧ key ∉ keys es := by simpa [keys] using h
    simp [put, Ne.symm hk.1, ih hk.2]

/-- A write under a key that is there changes the value of its entry. -/
theorem put_of_mem {es : List (String × α)} (h : (keys es).Nodup) {key : String}
    (hkey : key ∈ keys es) (value : α) :
    put es key value = es.map fun e => (e.1, if e.1 = key then value else e.2) := by
  induction es with
  | nil => simp [keys] at hkey
  | cons e es ih =>
    obtain ⟨k, w⟩ := e
    have hk : k ∉ keys es ∧ (keys es).Nodup := by simpa [keys] using h
    by_cases he : k = key
    · subst he
      -- the key occurs once, so the entries behind it stay
      have hrest : es.map (fun e => (e.1, if e.1 = k then value else e.2)) = es := by
        refine (List.map_congr_left fun e hm => ?_).trans (List.map_id es)
        have hne : e.1 ≠ k := fun heq => hk.1 (heq ▸ mem_keys_of_mem hm)
        rw [if_neg hne]
        rfl
      simp [put, hrest]
    · have hmem : key ∈ keys es := by
        simpa [keys, Ne.symm he] using hkey
      simp [put, he, ih hk.2 hmem]

/-- Writing a value that is there already changes nothing. -/
theorem put_of_get?_eq {es : List (String × α)} {key : String} {value : α}
    (h : get? es key = some value) : put es key value = es := by
  induction es with
  | nil => simp at h
  | cons e es ih =>
    obtain ⟨k, w⟩ := e
    rw [get?_cons] at h
    by_cases hk : k = key
    · have hw : w = value := by simpa [hk] using h
      simp [put, hk, hw]
    · simp only [hk, if_false] at h
      simp [put, hk, ih h]

/-- Of two writes under one key the later counts. -/
theorem put_put (es : List (String × α)) (key : String) (value value' : α) :
    put (put es key value) key value' = put es key value' := by
  induction es with
  | nil => simp [put]
  | cons e es ih =>
    obtain ⟨k, w⟩ := e
    by_cases hk : k = key
    · simp [put, hk]
    · simp [put, hk, ih]

end Entries

/-! ## Dictionaries -/

/-- A finite map that remembers the order in which its keys came in. -/
structure Dict (α : Type) where
  /-- The entries in insertion order. -/
  entries : List (String × α)
  /-- No key occurs twice. -/
  nodup : (Entries.keys entries).Nodup

namespace Dict

variable {α β : Type}

@[ext] theorem ext {d e : Dict α} (h : d.entries = e.entries) : d = e := by
  cases d
  cases e
  cases h
  rfl

instance [DecidableEq α] : DecidableEq (Dict α) := fun d e =>
  if h : d.entries = e.entries then isTrue (ext h)
  else isFalse fun he => h (he ▸ rfl)

/-- The dictionary without entries. -/
def empty : Dict α := ⟨[], List.nodup_nil⟩

instance : Inhabited (Dict α) := ⟨empty⟩

instance : EmptyCollection (Dict α) := ⟨empty⟩

/-- The keys in insertion order. -/
def keys (d : Dict α) : List String := Entries.keys d.entries

/-- The values in insertion order of their keys. -/
def values (d : Dict α) : List α := d.entries.map Prod.snd

/-- The number of entries. -/
def size (d : Dict α) : Nat := d.entries.length

/-- Whether there is no entry. -/
def isEmpty (d : Dict α) : Bool := d.entries.isEmpty

/-- The value at a key. -/
def get? (d : Dict α) (key : String) : Option α := Entries.get? d.entries key

/-- Whether a key is present. -/
def contains (d : Dict α) (key : String) : Bool := (d.get? key).isSome

/-- Writes a value at a key; a present key keeps its position. -/
def insert (d : Dict α) (key : String) (value : α) : Dict α :=
  ⟨Entries.put d.entries key value, Entries.nodup_keys_put d.nodup key value⟩

/-- Keeps the entries that satisfy a predicate. -/
def filter (d : Dict α) (p : String → α → Bool) : Dict α :=
  ⟨d.entries.filter fun e => p e.1 e.2, (Entries.keys_filter_sublist _ _).nodup d.nodup⟩

/-- Removes a key. -/
def erase (d : Dict α) (key : String) : Dict α := d.filter fun k _ => k ≠ key

/-- Applies a function to every value. -/
def map (d : Dict α) (f : String → α → β) : Dict β :=
  ⟨d.entries.map fun e => (e.1, f e.1 e.2), by
    have h := d.nodup
    simpa [Entries.keys, Function.comp_def] using h⟩

/-- Applies a function to every value and drops the entries it rejects. -/
def filterMap (d : Dict α) (f : String → α → Option β) : Dict β :=
  ⟨d.entries.filterMap fun e => (f e.1 e.2).map fun v => (e.1, v), by
    have h : (Entries.keys (d.entries.filterMap fun e => (f e.1 e.2).map fun v => (e.1, v))).Sublist
        (Entries.keys d.entries) := by
      induction d.entries with
      | nil => simp [Entries.keys]
      | cons e es ih =>
        simp only [Entries.keys] at ih
        cases hf : f e.1 e.2 with
        | none => simpa [Entries.keys, hf] using ih.cons e.1
        | some v => simpa [Entries.keys, hf] using ih.cons_cons e.1
    exact h.nodup d.nodup⟩

/-- Changes the value at a key, if there is one. -/
def modify (d : Dict α) (key : String) (f : α → α) : Dict α :=
  d.map fun k v => if k = key then f v else v

/-- Writes a list of entries one after the other, so the last value of a key counts. -/
def insertAll (d : Dict α) (es : List (String × α)) : Dict α :=
  es.foldl (fun d e => d.insert e.1 e.2) d

/-- The dictionary that a list of entries describes. -/
def ofList (es : List (String × α)) : Dict α := empty.insertAll es

/-- Applies a function that may fail to every value, in order. -/
def traverse {ε : Type} (d : Dict α) (f : String → α → Except ε β) : Except ε (Dict β) :=
  (d.entries.mapM fun e => (f e.1 e.2).map fun v => (e.1, v)).map ofList

theorem get?_insert (d : Dict α) (key key' : String) (value : α) :
    (d.insert key value).get? key' = if key = key' then some value else d.get? key' :=
  Entries.get?_put d.entries key key' value

theorem keys_insert (d : Dict α) (key : String) (value : α) :
    (d.insert key value).keys = if key ∈ d.keys then d.keys else d.keys ++ [key] :=
  Entries.keys_put d.entries key value

theorem contains_iff (d : Dict α) (key : String) : d.contains key ↔ key ∈ d.keys :=
  Entries.isSome_get? d.entries key

@[simp] theorem keys_map (d : Dict α) (f : String → α → β) : (d.map f).keys = d.keys := by
  simp [keys, map, Entries.keys, Function.comp_def]

@[simp] theorem get?_empty (key : String) : (empty : Dict α).get? key = none := rfl

/-- Looking a key up finds its entry. -/
theorem get?_eq_some_iff {d : Dict α} {key : String} {v : α} :
    d.get? key = some v ↔ (key, v) ∈ d.entries :=
  Entries.get?_eq_some_iff d.nodup

theorem mem_keys_iff {d : Dict α} {key : String} : key ∈ d.keys ↔ ∃ v, d.get? key = some v := by
  rw [← contains_iff, contains, Option.isSome_iff_exists]

theorem mem_values_iff {d : Dict α} {v : α} : v ∈ d.values ↔ ∃ key, d.get? key = some v := by
  simp [values, get?_eq_some_iff]

theorem get?_eq_none_iff {d : Dict α} {key : String} : d.get? key = none ↔ key ∉ d.keys :=
  Entries.get?_eq_none_iff

@[simp] theorem get?_map (d : Dict α) (f : String → α → β) (key : String) :
    (d.map f).get? key = (d.get? key).map (f key) := Entries.get?_map d.entries f key

@[simp] theorem get?_filterMap (d : Dict α) (f : String → α → Option β) (key : String) :
    (d.filterMap f).get? key = (d.get? key).bind (f key) := by
  refine Option.ext fun w => ?_
  simp only [get?_eq_some_iff, Option.bind_eq_some_iff, filterMap, List.mem_filterMap,
    Option.map_eq_some_iff, Prod.mk.injEq]
  constructor
  · rintro ⟨⟨k, v⟩, hm, w, hw, rfl, rfl⟩
    exact ⟨v, hm, hw⟩
  · rintro ⟨v, hm, hw⟩
    exact ⟨(key, v), hm, w, hw, rfl, rfl⟩

@[simp] theorem get?_filter (d : Dict α) (p : String → α → Bool) (key : String) :
    (d.filter p).get? key = (d.get? key).filter (p key) := by
  refine Option.ext fun w => ?_
  simp only [get?_eq_some_iff, Option.filter_eq_some_iff, filter, List.mem_filter]

@[simp] theorem get?_modify (d : Dict α) (key key' : String) (f : α → α) :
    (d.modify key f).get? key' = if key' = key then (d.get? key').map f else d.get? key' := by
  rw [modify, get?_map]
  by_cases h : key' = key <;> simp [h]

@[simp] theorem keys_modify (d : Dict α) (key : String) (f : α → α) :
    (d.modify key f).keys = d.keys :=
  keys_map d _

/-- Where values tell their keys, looking a key up is filtering the values. -/
theorem filter_values_eq {d : Dict α} {f : α → String}
    (hf : ∀ key v, d.get? key = some v → f v = key) (key : String) :
    (d.values.filter fun v => f v = key) = (d.get? key).toList := by
  have hfilter : (d.entries.filter fun e => f e.2 = key) = d.entries.filter fun e => e.1 = key := by
    refine List.filter_congr fun e he => ?_
    rw [hf e.1 e.2 (get?_eq_some_iff.2 he)]
  rw [values, List.filter_map]
  exact (congrArg (List.map Prod.snd) hfilter).trans (Entries.map_filter_key d.nodup key)

/-- A function applied to all values after a write is applied to the value that is written. -/
theorem map_insert (d : Dict α) (f : String → α → β) (key : String) (value : α) :
    (d.insert key value).map f = (d.map f).insert key (f key value) := by
  refine ext ?_
  show (Entries.put d.entries key value).map (fun e => (e.1, f e.1 e.2)) =
    Entries.put (d.entries.map fun e => (e.1, f e.1 e.2)) key (f key value)
  induction d.entries with
  | nil => rfl
  | cons e es ih =>
    obtain ⟨k, v⟩ := e
    by_cases h : k = key
    · subst h
      simp [Entries.put]
    · simp [Entries.put, h, ih]

theorem map_insertAll (d : Dict α) (es : List (String × α)) (f : String → α → β) :
    (d.insertAll es).map f = (d.map f).insertAll (es.map fun e => (e.1, f e.1 e.2)) := by
  induction es generalizing d with
  | nil => rfl
  | cons e es ih => exact (ih (d.insert e.1 e.2)).trans (by rw [map_insert]; rfl)

theorem map_ofList (es : List (String × α)) (f : String → α → β) :
    (ofList es).map f = ofList (es.map fun e => (e.1, f e.1 e.2)) :=
  map_insertAll empty es f

/-- A function that changes no value changes nothing. -/
theorem map_eq_self {d : Dict α} {f : String → α → α} (h : ∀ e ∈ d.entries, f e.1 e.2 = e.2) :
    d.map f = d := by
  refine ext ?_
  calc (d.entries.map fun e => (e.1, f e.1 e.2)) = d.entries.map id :=
        List.map_congr_left fun e he => Prod.ext rfl (h e he)
    _ = d.entries := List.map_id _

theorem values_map (d : Dict α) (f : α → β) :
    (d.map fun _ v => f v).values = d.values.map f := by
  simp [values, map, Function.comp_def]

theorem map_map {γ : Type} (d : Dict α) (f : String → α → β) (f' : String → β → γ) :
    (d.map f).map f' = d.map fun k v => f' k (f k v) := by
  refine ext ?_
  simp [map, Function.comp_def]

theorem map_filterMap {γ : Type} (d : Dict α) (f : String → α → Option β) (f' : String → β → γ) :
    (d.filterMap f).map f' = d.filterMap fun k v => (f k v).map (f' k) := by
  refine ext ?_
  simp [map, filterMap, List.map_filterMap, Function.comp_def]

theorem filterMap_map {γ : Type} (d : Dict α) (f : String → α → β) (f' : String → β → Option γ) :
    (d.map f).filterMap f' = d.filterMap fun k v => f' k (f k v) := by
  refine ext ?_
  simp only [map, filterMap, List.filterMap_map]
  rfl

theorem filter_map (d : Dict α) (f : String → α → β) (p : String → β → Bool) :
    (d.map f).filter p = (d.filter fun k v => p k (f k v)).map f := by
  refine ext ?_
  simp [map, filter, List.filter_map, Function.comp_def]

/-- Where no value is rejected, all keys are kept. -/
theorem keys_filterMap {d : Dict α} {f : String → α → Option β}
    (h : ∀ key v, d.get? key = some v → (f key v).isSome) : (d.filterMap f).keys = d.keys := by
  have hall : ∀ e ∈ d.entries, (f e.1 e.2).isSome := fun e he => h e.1 e.2 (get?_eq_some_iff.2 he)
  rw [keys, keys, filterMap]
  dsimp only
  generalize d.entries = es at hall
  induction es with
  | nil => rfl
  | cons e es ih =>
    obtain ⟨v, hv⟩ := Option.isSome_iff_exists.1 (hall e List.mem_cons_self)
    have hrest := ih fun e' he' => hall e' (List.mem_cons_of_mem _ he')
    rw [List.filterMap_cons, hv]
    exact congrArg (e.1 :: ·) hrest

/-- The keys that are kept stay in their order. -/
theorem keys_filterMap_sublist (d : Dict α) (f : String → α → Option β) :
    (d.filterMap f).keys.Sublist d.keys := by
  rw [keys, keys, filterMap]
  dsimp only
  induction d.entries with
  | nil => exact List.Sublist.refl []
  | cons e es ih =>
    rw [List.filterMap_cons]
    cases f e.1 e.2 with
    | none => exact ih.cons e.1
    | some v => exact ih.cons_cons e.1

theorem keys_filter (d : Dict α) (p : String → α → Bool) :
    (d.filter p).keys = (d.entries.filter fun e => p e.1 e.2).map Prod.fst := rfl

/-- A write under a new key appends an entry. -/
theorem entries_insert_of_not_mem {d : Dict α} {key : String} (h : key ∉ d.keys) (value : α) :
    (d.insert key value).entries = d.entries ++ [(key, value)] :=
  Entries.put_of_not_mem h value

/-- A write under a key that is there changes the value at this key and no other. -/
theorem insert_of_mem {d : Dict α} {key : String} (h : key ∈ d.keys) (value : α) :
    d.insert key value = d.map fun k v => if k = key then value else v :=
  ext (Entries.put_of_mem d.nodup h value)

/-- Writing a value that is there already changes nothing. -/
theorem insert_of_get?_eq {d : Dict α} {key : String} {value : α} (h : d.get? key = some value) :
    d.insert key value = d :=
  ext (Entries.put_of_get?_eq h)

/-- Of two writes under one key the later counts. -/
theorem insert_insert (d : Dict α) (key : String) (value value' : α) :
    (d.insert key value).insert key value' = d.insert key value' :=
  ext (Entries.put_put d.entries key value value')

/-- A write that is kept, over a value that is kept, if any, can be made after the others are
dropped. -/
theorem filter_insert_of_pos {d : Dict α} {p : String → α → Bool} {key : String} {value : α}
    (h : ∀ v, d.get? key = some v → p key v) (hvalue : p key value) :
    (d.insert key value).filter p = (d.filter p).insert key value := by
  refine ext ?_
  show (Entries.put d.entries key value).filter (fun e => p e.1 e.2) =
    Entries.put (d.entries.filter fun e => p e.1 e.2) key value
  unfold get? at h
  generalize d.entries = es at h ⊢
  induction es with
  | nil => simp [Entries.put, hvalue]
  | cons e es ih =>
    obtain ⟨k, v⟩ := e
    rw [Entries.get?_cons] at h
    rw [Entries.put]
    by_cases hk : k = key
    · subst hk
      have hv : p k v := h v (if_pos rfl)
      simp [hvalue, hv, Entries.put]
    · rw [if_neg hk] at h
      rw [if_neg hk, List.filter_cons, List.filter_cons, ih h]
      cases p k v with
      | false => rfl
      | true => simp [Entries.put, hk]

/-- A write that is dropped, over a value that is dropped, if any, leaves no trace. -/
theorem filter_insert_of_neg {d : Dict α} {p : String → α → Bool} {key : String} {value : α}
    (h : ∀ v, d.get? key = some v → ¬ p key v) (hvalue : ¬ p key value) :
    (d.insert key value).filter p = d.filter p := by
  refine ext ?_
  show (Entries.put d.entries key value).filter (fun e => p e.1 e.2) =
    d.entries.filter fun e => p e.1 e.2
  unfold get? at h
  generalize d.entries = es at h ⊢
  induction es with
  | nil => simp [Entries.put, hvalue]
  | cons e es ih =>
    obtain ⟨k, v⟩ := e
    rw [Entries.get?_cons] at h
    rw [Entries.put]
    by_cases hk : k = key
    · subst hk
      have hv : ¬ p k v := h v (if_pos rfl)
      simp [hvalue, hv]
    · rw [if_neg hk] at h
      rw [if_neg hk, List.filter_cons, List.filter_cons, ih h]

/-- Entries with distinct keys, written to a dictionary without these keys, follow its own. -/
theorem entries_insertAll {d : Dict α} {es : List (String × α)}
    (h : (Entries.keys (d.entries ++ es)).Nodup) : (d.insertAll es).entries = d.entries ++ es := by
  induction es generalizing d with
  | nil => simp [insertAll]
  | cons e es ih =>
    have hnew : e.1 ∉ d.keys := by
      intro hm
      rw [Entries.keys_append, List.nodup_append] at h
      exact h.2.2 e.1 hm e.1 (by simp [Entries.keys]) rfl
    have hd : (d.insert e.1 e.2).entries = d.entries ++ [e] := entries_insert_of_not_mem hnew e.2
    have hkeys : (Entries.keys ((d.insert e.1 e.2).entries ++ es)).Nodup := by
      simpa [hd] using h
    simpa [insertAll, hd] using ih hkeys

/-- A list of entries with distinct keys describes the dictionary with these entries. -/
theorem entries_ofList {es : List (String × α)} (h : (Entries.keys es).Nodup) :
    (ofList es).entries = es := by
  have hempty : (Entries.keys ((empty : Dict α).entries ++ es)).Nodup := by simpa [empty] using h
  rw [ofList, entries_insertAll hempty]
  rfl

@[simp] theorem ofList_entries (d : Dict α) : ofList d.entries = d := ext (entries_ofList d.nodup)

/-- Dictionaries with the same keys in the same order are equal where they hold the same. -/
theorem eq_of_get? {d e : Dict α} (hkeys : d.keys = e.keys) (h : ∀ key, d.get? key = e.get? key) :
    d = e := by
  have hlooked : ∀ d : Dict α, d.entries.map (fun e => (e.1, some e.2)) =
      d.keys.map fun key => (key, d.get? key) := by
    intro d
    rw [keys, Entries.keys, List.map_map]
    exact List.map_congr_left fun e he => Prod.ext rfl (get?_eq_some_iff.2 he).symm
  have hinjective : ∀ e e' : String × α, (e.1, some e.2) = (e'.1, some e'.2) → e = e' := by
    rintro ⟨k, v⟩ ⟨k', v'⟩ heq
    simpa using heq
  refine ext ((List.map_inj_right fun {e e'} => hinjective e e').1 ?_)
  rw [hlooked, hlooked, hkeys]
  exact List.map_congr_left fun key _ => by rw [h]

theorem filterMap_eq_self {d : Dict α} {f : String → α → Option α}
    (h : ∀ key v, d.get? key = some v → f key v = some v) : d.filterMap f = d := by
  refine eq_of_get? (keys_filterMap fun key v hv => by simp [h key v hv]) fun key => ?_
  rw [get?_filterMap]
  cases hv : d.get? key with
  | none => rfl
  | some v => exact h key v hv

end Dict

end NodeFlow
