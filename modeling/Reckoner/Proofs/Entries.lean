import Reckoner.Value

/-!
# Updated entries

Updating entries gives the keys that were there their new values, in place, and puts the new keys behind
them. The keys stay distinct, so that every one of them has one value.

Main results: `Entries.get?_update`, `Entries.update_eq_overlaid`, `Entries.update_update`,
`Entries.replace_replace`.
-/

namespace Reckoner

namespace Entries

variable {κ α : Type}

/-- No key stands twice. -/
def Distinct (entries : Entries κ α) : Prop := (entries.map (·.1)).Nodup

theorem ne_of_absent {entries : Entries κ α} {key : κ} (absent : key ∉ entries.map (·.1))
    {entry : κ × α} (member : entry ∈ entries) : entry.1 ≠ key :=
  fun same => absent (List.mem_map.mpr ⟨entry, member, same⟩)

section

variable [DecidableEq κ]

theorem get?_cons (entry : κ × α) (rest : Entries κ α) (key : κ) :
    Entries.get? (entry :: rest) key = if entry.1 = key then some entry.2 else get? rest key := by
  unfold get?
  rw [List.find?_cons]
  by_cases same : entry.1 = key
  · simp [same]
  · have other : (entry.1 == key) = false := by simpa using same
    simp [other, same]

theorem get?_eq_none {entries : Entries κ α} {key : κ} (absent : key ∉ entries.map (·.1)) :
    entries.get? key = none := by
  induction entries with
  | nil => rfl
  | cons entry rest ih =>
    rw [List.map_cons, List.mem_cons, not_or] at absent
    rw [get?_cons, if_neg (Ne.symm absent.1), ih absent.2]

theorem get?_of_mem {entries : Entries κ α} (distinct : entries.Distinct) {entry : κ × α}
    (member : entry ∈ entries) : entries.get? entry.1 = some entry.2 := by
  induction entries with
  | nil => cases member
  | cons first rest ih =>
    obtain ⟨absent, distinct⟩ := List.nodup_cons.mp distinct
    rw [get?_cons]
    rcases List.mem_cons.mp member with rfl | later
    · rw [if_pos rfl]
    · rw [if_neg fun same => absent (List.mem_map.mpr ⟨entry, later, same.symm⟩), ih distinct later]

theorem mem_of_get? {entries : Entries κ α} {key : κ} {value : α} (found : entries.get? key = some value) :
    (key, value) ∈ entries := by
  induction entries with
  | nil => cases found
  | cons entry rest ih =>
    rw [get?_cons] at found
    split at found
    next same =>
      cases found
      exact same ▸ List.mem_cons_self
    next => exact List.mem_cons_of_mem entry (ih found)

/-- The keys after one was set: it comes last if it is new. -/
theorem keys_put (entries : Entries κ α) (key : κ) (value : α) :
    (entries.put key value).map (·.1) =
      if key ∈ entries.map (·.1) then entries.map (·.1) else entries.map (·.1) ++ [key] := by
  induction entries with
  | nil => rfl
  | cons entry rest ih =>
    rw [put]
    by_cases same : entry.1 = key
    · simp [same]
    · have other : key ≠ entry.1 := Ne.symm same
      simp only [if_neg same, List.map_cons, ih, List.mem_cons, other, false_or]
      split <;> rfl

theorem Distinct.put {entries : Entries κ α} (distinct : entries.Distinct) (key : κ) (value : α) :
    (entries.put key value).Distinct := by
  unfold Distinct
  rw [keys_put]
  split
  next => exact distinct
  next absent =>
    -- A key that is new goes behind all others.
    refine List.nodup_append.mpr ⟨distinct, by simp, ?_⟩
    rintro other member _ last rfl
    rw [List.mem_singleton] at last
    exact absent (last ▸ member)

theorem Distinct.update {entries : Entries κ α} (distinct : entries.Distinct) (newer : Entries κ α) :
    (entries.update newer).Distinct := by
  induction newer generalizing entries with
  | nil => exact distinct
  | cons entry newer ih => exact ih (distinct.put entry.1 entry.2)

/-- An updated key has its new value, and every other key keeps its own. -/
theorem get?_update (entries : Entries κ α) {newer : Entries κ α} (distinct : newer.Distinct) (key : κ) :
    (entries.update newer).get? key = (newer.get? key).or (entries.get? key) := by
  induction newer generalizing entries with
  | nil => rfl
  | cons entry newer ih =>
    obtain ⟨absent, rest⟩ := List.nodup_cons.mp distinct
    change ((entries.put entry.1 entry.2).update newer).get? key = _
    rw [ih _ rest, get?_cons]
    by_cases same : entry.1 = key
    · -- The key is set now and, standing once only, not again later.
      subst same
      rw [get?_eq_none absent, get?_put_self, if_pos rfl]
      rfl
    · rw [get?_put_other entries entry.2 (Ne.symm same), if_neg same]

/-! ### Entries by their keys -/

theorem mem_put {entries : Entries κ α} {key : κ} {value : α} {entry : κ × α}
    (member : entry ∈ entries.put key value) : entry ∈ entries ∨ entry = (key, value) := by
  induction entries with
  | nil => exact .inr (List.mem_singleton.mp member)
  | cons first rest ih =>
    rw [put] at member
    split at member
    next same =>
      rcases List.mem_cons.mp member with found | found
      · rw [found, ← same]
        exact .inr rfl
      · exact .inl (List.mem_cons_of_mem first found)
    next =>
      rcases List.mem_cons.mp member with found | found
      · exact .inl (found ▸ List.mem_cons_self)
      · exact (ih found).imp_left (List.mem_cons_of_mem first)

/-- Updated entries are old ones or new ones. -/
theorem mem_update {entries newer : Entries κ α} {entry : κ × α}
    (member : entry ∈ entries.update newer) : entry ∈ entries ∨ entry ∈ newer := by
  induction newer generalizing entries with
  | nil => exact .inl member
  | cons first newer ih =>
    rcases ih member with found | found
    · rcases mem_put found with old | new
      · exact .inl old
      · exact .inr (new ▸ List.mem_cons_self)
    · exact .inr (List.mem_cons_of_mem first found)

/-- The keys keep their places, and other ones come behind them. -/
theorem keys_prefix_update (entries newer : Entries κ α) :
    entries.map (·.1) <+: (entries.update newer).map (·.1) := by
  induction newer generalizing entries with
  | nil => exact List.prefix_refl _
  | cons entry newer ih =>
    have step : entries.map (·.1) <+: (entries.put entry.1 entry.2).map (·.1) := by
      rw [keys_put]
      split
      next => exact List.prefix_refl _
      next => exact List.prefix_append _ _
    exact step.trans (ih _)

/-- Distinct keys in their order and what they stand for make up the entries. -/
theorem Distinct.ext {entries others : Entries κ α} (distinct : entries.Distinct)
    (keys : entries.map (·.1) = others.map (·.1)) (values : ∀ key, entries.get? key = others.get? key) :
    entries = others := by
  induction entries generalizing others with
  | nil => exact (List.map_eq_nil_iff.mp keys.symm).symm
  | cons entry rest ih =>
    cases others with
    | nil => cases keys
    | cons other others =>
      obtain ⟨absent, distinct⟩ := List.nodup_cons.mp distinct
      obtain ⟨key, keys⟩ := List.cons.inj keys
      have value : entry.2 = other.2 := by simpa [get?_cons, key] using values entry.1
      have tail : rest = others := by
        refine ih distinct keys fun k => ?_
        by_cases same : entry.1 = k
        · -- The first key does not stand again.
          subst same
          rw [get?_eq_none absent, get?_eq_none (keys ▸ absent)]
        · have here := values k
          rwa [get?_cons, get?_cons, if_neg same, if_neg fun found => same (key.trans found)] at here
      rw [Prod.ext key value, tail]

/-! ### Entries over others -/

/-- The entries with their new values in place, then the entries with other keys. -/
def overlaid (entries newer : Entries κ α) : Entries κ α :=
  entries.map (fun entry => (entry.1, (newer.get? entry.1).getD entry.2)) ++
    newer.filter (·.1 ∉ entries.map (·.1))

theorem keys_overlaid (entries newer : Entries κ α) :
    (entries.overlaid newer).map (·.1) =
      entries.map (·.1) ++ (newer.map (·.1)).filter (· ∉ entries.map (·.1)) := by
  simp only [overlaid, List.map_append, List.map_map, List.filter_map]
  rfl

theorem put_of_mem {entries : Entries κ α} (distinct : entries.Distinct) {key : κ} {value : α}
    (known : key ∈ entries.map (·.1)) :
    entries.put key value =
      entries.map fun entry => (entry.1, if entry.1 = key then value else entry.2) := by
  induction entries with
  | nil => cases known
  | cons entry rest ih =>
    obtain ⟨absent, distinct⟩ := List.nodup_cons.mp distinct
    rw [put, List.map_cons]
    by_cases same : entry.1 = key
    · -- The key does not stand again, so nothing else changes.
      have others : rest.map (fun entry => (entry.1, if entry.1 = key then value else entry.2)) = rest := by
        refine (List.map_congr_left fun other member => ?_).trans (List.map_id rest)
        rw [if_neg (ne_of_absent (same ▸ absent) member)]
        rfl
      rw [if_pos same, if_pos same, others]
    · have later : key ∈ rest.map (·.1) := (List.mem_cons.mp known).resolve_left (Ne.symm same)
      rw [if_neg same, if_neg same, ih distinct later]

theorem put_of_not_mem {entries : Entries κ α} {key : κ} {value : α}
    (unknown : key ∉ entries.map (·.1)) : entries.put key value = entries ++ [(key, value)] := by
  induction entries with
  | nil => rfl
  | cons entry rest ih =>
    rw [List.map_cons, List.mem_cons, not_or] at unknown
    rw [put, if_neg (Ne.symm unknown.1), ih unknown.2, List.cons_append]

/-- Updating with distinct keys lays the new entries over the old ones. -/
theorem update_eq_overlaid {entries newer : Entries κ α} (distinct : entries.Distinct)
    (distinctNewer : newer.Distinct) : entries.update newer = entries.overlaid newer := by
  induction newer generalizing entries with
  | nil => simp [update, overlaid, get?]
  | cons entry newer ih =>
    obtain ⟨absent, rest⟩ := List.nodup_cons.mp distinctNewer
    change (entries.put entry.1 entry.2).update newer = _
    rw [ih (distinct.put entry.1 entry.2) rest]
    by_cases known : entry.1 ∈ entries.map (·.1)
    · -- The key is in its place, and stays there with its new value.
      have keys : (entries.put entry.1 entry.2).map (·.1) = entries.map (·.1) := by
        rw [keys_put, if_pos known]
      unfold overlaid
      rw [keys, put_of_mem distinct known, List.map_map, List.filter_cons_of_neg (by simpa using known)]
      congr 1
      refine List.map_congr_left fun old _ => ?_
      show (old.1, (get? newer old.1).getD (if old.1 = entry.1 then entry.2 else old.2)) = _
      rw [get?_cons]
      by_cases same : old.1 = entry.1
      · rw [same, get?_eq_none absent, if_pos rfl, if_pos rfl]
        rfl
      · rw [if_neg same, if_neg (Ne.symm same)]
    · -- The key is new, and stands behind all others.
      have keys : (entries.put entry.1 entry.2).map (·.1) = entries.map (·.1) ++ [entry.1] := by
        rw [keys_put, if_neg known]
      unfold overlaid
      rw [keys, put_of_not_mem known, List.filter_cons_of_pos (by simpa using known), List.map_append,
        List.append_assoc]
      congr 1
      · refine List.map_congr_left fun old member => ?_
        rw [get?_cons, if_neg (Ne.symm (ne_of_absent known member))]
      · simp only [List.map_cons, List.map_nil, List.singleton_append, get?_eq_none absent, Option.getD_none]
        congr 1
        refine List.filter_congr fun other member => ?_
        simp [ne_of_absent absent member]

/-- Distinct keys are put one behind another. -/
theorem update_nil {entries : Entries κ α} (distinct : entries.Distinct) : update [] entries = entries := by
  have empty : Distinct ([] : Entries κ α) := List.nodup_nil
  rw [update_eq_overlaid empty distinct]
  simp [overlaid]

/-- What was laid over the entries once changes nothing when it is laid over them again. -/
theorem update_update {entries newer : Entries κ α} (distinct : entries.Distinct)
    (distinctNewer : newer.Distinct) : entries.update (entries.update newer) = entries.update newer := by
  have updated := distinct.update newer
  refine (distinct.update _).ext ?_ fun key => ?_
  · rw [update_eq_overlaid distinct updated, update_eq_overlaid distinct distinctNewer]
    simp [keys_overlaid, List.filter_append, List.filter_filter]
  · rw [get?_update entries updated, get?_update entries distinctNewer]
    cases newer.get? key <;> cases entries.get? key <;> rfl

/-- Laid over entries with whose keys they begin, the newer entries are all that is left. -/
theorem update_of_keys_prefix {entries newer : Entries κ α} (distinct : entries.Distinct)
    (distinctNewer : newer.Distinct) (begins : entries.map (·.1) <+: newer.map (·.1)) :
    entries.update newer = newer := by
  refine (distinct.update newer).ext ?_ fun key => ?_
  · obtain ⟨others, keys⟩ := begins
    have apart : ∀ key ∈ others, key ∉ entries.map (·.1) := by
      have nodup : (entries.map (·.1) ++ others).Nodup := by rwa [keys]
      exact fun key member old => (List.nodup_append.mp nodup).2.2 key old key member rfl
    rw [update_eq_overlaid distinct distinctNewer, keys_overlaid, ← keys, List.filter_append,
      List.filter_eq_nil_iff.mpr (by simp), List.nil_append, List.filter_eq_self.mpr (by simpa using apart)]
  · rw [get?_update entries distinctNewer]
    cases found : newer.get? key with
    | some value => rfl
    | none =>
      -- A key of the older entries is one of the newer ones.
      refine get?_eq_none fun member => ?_
      obtain ⟨entry, here, rfl⟩ := List.mem_map.mp (begins.subset member)
      rw [get?_of_mem distinctNewer here] at found
      cases found

end

/-! ### Entries with values replaced -/

/-- The entries, with new values for some of the keys. -/
def replace (entries : Entries κ α) (new? : κ → Option α) : Entries κ α :=
  entries.map fun entry => (entry.1, (new? entry.1).getD entry.2)

@[simp] theorem keys_replace (entries : Entries κ α) (new? : κ → Option α) :
    (entries.replace new?).map (·.1) = entries.map (·.1) := by
  rw [replace, List.map_map]
  rfl

theorem Distinct.replace {entries : Entries κ α} (distinct : entries.Distinct) (new? : κ → Option α) :
    (entries.replace new?).Distinct := by
  rwa [Distinct, keys_replace]

/-- Replacing twice is replacing once: the later values count. -/
theorem replace_replace (entries : Entries κ α) (new? newer? : κ → Option α) :
    (entries.replace new?).replace newer? = entries.replace fun key => (newer? key).or (new? key) := by
  simp only [replace, List.map_map]
  refine List.map_congr_left fun entry _ => ?_
  cases found : newer? entry.1 <;> simp [found]

theorem replace_none (entries : Entries κ α) : (entries.replace fun _ => none) = entries := List.map_id entries

/-- Two replacements come to the same if every entry gets the same value from both. -/
theorem replace_eq_replace {entries : Entries κ α} {new? newer? : κ → Option α} :
    entries.replace new? = entries.replace newer? ↔
      ∀ entry ∈ entries, (new? entry.1).getD entry.2 = (newer? entry.1).getD entry.2 := by
  simp [replace]

/-- Entries stay as they are if no key gets another value. -/
theorem replace_eq_self {entries : Entries κ α} {new? : κ → Option α}
    (same : ∀ entry ∈ entries, (new? entry.1).getD entry.2 = entry.2) : entries.replace new? = entries :=
  (replace_eq_replace.mpr same).trans (replace_none entries)

theorem put_eq_replace [DecidableEq κ] {entries : Entries κ α} (distinct : entries.Distinct) {key : κ}
    (known : key ∈ entries.map (·.1)) (value : α) :
    entries.put key value = entries.replace fun other => if other = key then some value else none := by
  rw [put_of_mem distinct known, replace]
  refine List.map_congr_left fun entry _ => ?_
  by_cases same : entry.1 = key <;> simp [same]

theorem mem_replace {entries : Entries κ α} {new? : κ → Option α} {entry : κ × α}
    (member : entry ∈ entries.replace new?) :
    ∃ old, (entry.1, old) ∈ entries ∧ entry.2 = (new? entry.1).getD old := by
  obtain ⟨old, here, rfl⟩ := List.mem_map.mp member
  exact ⟨old.2, here, rfl⟩

end Entries

end Reckoner
