import Mathlib.Data.List.Induction
import Mathlib.Data.List.Sort
import Std.Data.TreeMap.Lemmas

/-!
# Machines over a keyed store

A keyed machine runs through a list of items against an ordered map. An item is
addressed to one key; it leaves the value stored there alone, or replaces it and emits
an output of the same key. No item reads or writes another key, so the run is the product
of one small run per key : `run_project` says that the value and the outputs of a key are
those of the items of that key alone, in their order.

`valuesOf` lists a map whose values know their keys. It is strictly increasing in the
key, and two such lists with the same members are equal (`eq_of_keySorted`).
-/

set_option linter.unusedSectionVars false

open Std

section Keys

variable {κ β : Type*} [DecidableEq κ] {keyOf : β → κ} {l l' : List β}

/-- With distinct keys a member is the only one of its key. -/
theorem filter_key_eq_singleton (hnodup : (l.map keyOf).Nodup) {a : β} (ha : a ∈ l) :
    (l.filter fun b => keyOf b = keyOf a) = [a] := by
  classical
  have hsame : ∀ b ∈ l, decide (keyOf b = keyOf a) = decide (b = a) := by
    intro b hb
    rw [decide_eq_decide]
    exact ⟨List.inj_on_of_nodup_map hnodup hb ha, congrArg keyOf⟩
  have hone : l.count a = 1 := List.count_eq_one_of_mem (List.Nodup.of_map _ hnodup) ha
  rw [List.filter_congr hsame, List.filter_eq, hone]
  rfl

/-- With distinct keys the order of a list does not show in what it has for a key. -/
theorem filter_key_eq_of_perm (hnodup : (l.map keyOf).Nodup) (hperm : l.Perm l') (k : κ) :
    (l.filter fun b => keyOf b = k) = l'.filter fun b => keyOf b = k := by
  have hfilter := hperm.filter fun b => decide (keyOf b = k)
  rcases hl : l.filter fun b => keyOf b = k with _ | ⟨a, rest⟩
  · rw [hl] at hfilter
    exact hfilter.nil_eq
  · obtain ⟨ha, hkey⟩ := List.mem_filter.mp (hl ▸ List.mem_cons_self : a ∈ _)
    obtain rfl : keyOf a = k := by simpa using hkey
    rw [filter_key_eq_singleton hnodup ha] at hl hfilter
    rw [← hl]
    exact hfilter.singleton_eq

/-- Lists that have the same for every key differ in their order only. -/
theorem perm_of_filter_key_eq
    (h : ∀ k, (l.filter fun b => keyOf b = k) = l'.filter fun b => keyOf b = k) : l.Perm l' := by
  classical
  rw [List.perm_iff_count]
  intro a
  have hcount (l : List β) : (l.filter fun b => keyOf b = keyOf a).count a = l.count a :=
    List.count_filter (by simp)
  rw [← hcount l, ← hcount l', h]

end Keys

section ValuesOf

variable {κ β : Type*} [Ord κ] [TransOrd κ] [LawfulEqOrd κ]

/-- Strictly increasing in the key. -/
def KeySorted (keyOf : β → κ) (values : List β) : Prop :=
  values.Pairwise fun a b => compare (keyOf a) (keyOf b) = .lt

/-- A key occurs at most once in a key-sorted list. -/
theorem KeySorted.eq_of_key_eq {keyOf : β → κ} {l : List β} (h : KeySorted keyOf l) {a b : β}
    (ha : a ∈ l) (hb : b ∈ l) (hab : keyOf a = keyOf b) : a = b := by
  induction l with
  | nil => cases ha
  | cons c l ih =>
    obtain ⟨hc, hl⟩ := List.pairwise_cons.mp h
    rcases List.mem_cons.mp ha with rfl | ha' <;> rcases List.mem_cons.mp hb with rfl | hb'
    · rfl
    · simpa [hab] using hc b hb'
    · simpa [hab] using hc a ha'
    · exact ih hl ha' hb'

/-- A key-sorted list is determined by its members. -/
theorem eq_of_keySorted {keyOf : β → κ} {l l' : List β} (h : KeySorted keyOf l)
    (h' : KeySorted keyOf l') (hmem : ∀ a, a ∈ l ↔ a ∈ l') : l = l' := by
  have : Std.Irrefl fun a b : β => compare (keyOf a) (keyOf b) = .lt :=
    ⟨fun a ha => by simp at ha⟩
  have : Std.Antisymm fun a b : β => compare (keyOf a) (keyOf b) = .lt :=
    ⟨fun a b hab hba => (OrientedCmp.not_lt_of_lt hab hba).elim⟩
  exact List.Pairwise.eq_of_mem_iff h h' (fun a => hmem a)

/-- A member of a key-sorted list is the only one of its key. -/
theorem KeySorted.filter_key_eq [DecidableEq κ] {keyOf : β → κ} {l : List β}
    (h : KeySorted keyOf l) {a : β} (ha : a ∈ l) :
    (l.filter fun b => keyOf b = keyOf a) = [a] := by
  refine eq_of_keySorted (List.Pairwise.filter _ h) (List.pairwise_singleton _ a) fun b => ?_
  rw [List.mem_filter, List.mem_singleton, decide_eq_true_eq]
  constructor
  · rintro ⟨hb, hab⟩
    exact h.eq_of_key_eq hb ha hab
  · rintro rfl
    exact ⟨ha, rfl⟩

/-- The values of a map, in the order of their keys. -/
def valuesOf (m : TreeMap κ β) : List β :=
  m.toList.map Prod.snd

variable {m : TreeMap κ β} {keyOf : β → κ}

theorem mem_valuesOf (hkey : ∀ k v, m[k]? = some v → keyOf v = k) {v : β} :
    v ∈ valuesOf m ↔ m[keyOf v]? = some v := by
  unfold valuesOf
  rw [List.mem_map]
  constructor
  · rintro ⟨⟨k, v'⟩, hmem, rfl⟩
    have hk := TreeMap.mem_toList_iff_getElem?_eq_some.mp hmem
    rwa [hkey k _ hk]
  · intro h
    exact ⟨(keyOf v, v), TreeMap.mem_toList_iff_getElem?_eq_some.mpr h, rfl⟩

theorem keySorted_valuesOf (hkey : ∀ k v, m[k]? = some v → keyOf v = k) :
    KeySorted keyOf (valuesOf m) := by
  unfold KeySorted valuesOf
  rw [List.pairwise_map]
  refine (TreeMap.ordered_keys_toList (t := m)).imp_of_mem ?_
  rintro ⟨k, v⟩ ⟨k', v'⟩ hmem hmem' hlt
  rw [hkey k v (TreeMap.mem_toList_iff_getElem?_eq_some.mp hmem),
    hkey k' v' (TreeMap.mem_toList_iff_getElem?_eq_some.mp hmem')]
  exact hlt

/-- The values of a map are the images of those of another when its entries are. -/
theorem valuesOf_eq_map {γ : Type*} {m' : TreeMap κ γ} {f : β → γ}
    (h : ∀ k : κ, m'[k]? = m[k]?.map f) : valuesOf m' = (valuesOf m).map f := by
  have hentries : m'.toList = m.toList.map (Prod.map id f) := by
    have hsorted' : KeySorted Prod.fst m'.toList := TreeMap.ordered_keys_toList
    have hsorted : KeySorted Prod.fst (m.toList.map (Prod.map id f)) := by
      rw [KeySorted, List.pairwise_map]
      exact TreeMap.ordered_keys_toList
    refine eq_of_keySorted hsorted' hsorted fun ⟨k, v⟩ => ?_
    rw [TreeMap.mem_toList_iff_getElem?_eq_some, h, List.mem_map, Option.map_eq_some_iff]
    constructor
    · rintro ⟨b, hb, rfl⟩
      exact ⟨(k, b), TreeMap.mem_toList_iff_getElem?_eq_some.mpr hb, rfl⟩
    · rintro ⟨⟨k', b⟩, hb, heq⟩
      obtain ⟨rfl, rfl⟩ := Prod.mk.inj heq
      exact ⟨b, TreeMap.mem_toList_iff_getElem?_eq_some.mp hb, rfl⟩
  rw [valuesOf, valuesOf, hentries, List.map_map, List.map_map]
  rfl

end ValuesOf

section FirstByKey

variable {κ β : Type*} [Ord κ] [TransOrd κ] [LawfulEqOrd κ] [DecidableEq κ]

/-- The map that `emplace` builds from a list : the first value of a key wins. -/
def firstByKey (keyOf : β → κ) (values : List β) : TreeMap κ β :=
  values.foldl (fun m v => m.insertIfNew (keyOf v) v) ∅

theorem getElem?_foldl_insertIfNew (keyOf : β → κ) (k : κ) :
    ∀ (values : List β) (m : TreeMap κ β),
      (values.foldl (fun m v => m.insertIfNew (keyOf v) v) m)[k]? =
        m[k]?.or (values.find? fun v => keyOf v = k)
  | [], m => by simp
  | v :: values, m => by
    rw [List.foldl_cons, getElem?_foldl_insertIfNew keyOf k values, TreeMap.getElem?_insertIfNew,
      List.find?_cons]
    by_cases hk : keyOf v = k
    · subst hk
      rw [ReflOrd.compare_self]
      have hmem : keyOf v ∈ m ↔ m[keyOf v]?.isSome := TreeMap.mem_iff_isSome_getElem?
      cases hm : m[keyOf v]? <;> simp [hmem, hm]
    · have : compare (keyOf v) k ≠ .eq := fun h => hk (LawfulEqCmp.eq_of_compare h)
      simp [this, hk]

theorem getElem?_firstByKey (keyOf : β → κ) (values : List β) (k : κ) :
    (firstByKey keyOf values)[k]? = values.find? fun v => keyOf v = k := by
  rw [firstByKey, getElem?_foldl_insertIfNew]
  simp

end FirstByKey

/-- Items addressed to keys. An item leaves the value of its key alone (`none`), or
replaces it and emits an output that carries the same key. -/
structure KeyedMachine (κ ι β ο : Type*) where
  key : ι → κ
  outKey : ο → κ
  step : Option β → ι → Option (β × ο)
  outKey_step : ∀ {v i b o}, step v i = some (b, o) → outKey o = key i

namespace KeyedMachine

variable {κ ι β ο : Type*} (M : KeyedMachine κ ι β ο)

/-- One item against the value of its own key and the outputs so far. -/
def trackItem (v : Option β × List ο) (i : ι) : Option β × List ο :=
  match M.step v.1 i with
  | none => v
  | some (b, o) => (some b, v.2 ++ [o])

/-- The items of one key, from the value stored there. -/
def track (v : Option β) (items : List ι) : Option β × List ο :=
  items.foldl M.trackItem (v, [])

@[simp] theorem track_nil (v : Option β) : M.track v [] = (v, []) :=
  rfl

theorem track_snoc (v : Option β) (items : List ι) (i : ι) :
    M.track v (items ++ [i]) = M.trackItem (M.track v items) i := by
  rw [track, List.foldl_append]
  rfl

/-- A property of the value and the outputs that every answered item keeps. -/
theorem track_invariant {P : Option β → List ο → Prop} {v : Option β} {items : List ι}
    (start : P v []) (step : ∀ w os i b o, i ∈ items → P w os → M.step w i = some (b, o) →
      P (some b) (os ++ [o])) : P (M.track v items).1 (M.track v items).2 := by
  induction items using List.reverseRecOn with
  | nil => exact start
  | append_singleton items i ih =>
    have hP := ih fun w os j b o hj => step w os j b o (List.mem_append_left _ hj)
    rw [track_snoc, trackItem]
    cases hs : M.step (M.track v items).1 i with
    | none => exact hP
    | some bo => exact step _ _ i bo.1 bo.2 (by simp) hP hs

/-- Outputs that show their items are those of some of the items, in order. -/
theorem track_outputs_sublist {γ : Type*} {f : ο → γ} {g : ι → γ}
    (h : ∀ w i b o, M.step w i = some (b, o) → f o = g i) (v : Option β) (items : List ι) :
    ((M.track v items).2.map f).Sublist (items.map g) := by
  induction items using List.reverseRecOn with
  | nil => exact .slnil
  | append_singleton items i ih =>
    rw [track_snoc, trackItem, List.map_append]
    split
    · exact ih.trans (List.sublist_append_left _ _)
    · next b o hstep =>
      rw [List.map_append, List.map_singleton, h _ _ _ _ hstep]
      exact ih.append_right _

variable [Ord κ] [TransOrd κ] [LawfulEqOrd κ] [DecidableEq κ]

/-- One item against the whole map. -/
def visit (st : TreeMap κ β × List ο) (i : ι) : TreeMap κ β × List ο :=
  match M.step st.1[M.key i]? i with
  | none => st
  | some (b, o) => (st.1.insert (M.key i) b, st.2 ++ [o])

theorem visit_of_none {st : TreeMap κ β × List ο} {i : ι}
    (h : M.step st.1[M.key i]? i = none) : M.visit st i = st := by
  rw [visit, h]

theorem visit_of_some {st : TreeMap κ β × List ο} {i : ι} {b : β} {o : ο}
    (h : M.step st.1[M.key i]? i = some (b, o)) :
    M.visit st i = (st.1.insert (M.key i) b, st.2 ++ [o]) := by
  rw [visit, h]

/-- Items that change no value can be left out. -/
theorem foldl_visit_filter {items : List ι} {p : ι → Bool}
    (hskip : ∀ i ∈ items, p i = false → ∀ v, M.step v i = none) (st : TreeMap κ β × List ο) :
    (items.filter p).foldl M.visit st = items.foldl M.visit st := by
  induction items generalizing st with
  | nil => rfl
  | cons i items ih =>
    have ih := ih fun j hj => hskip j (List.mem_cons_of_mem _ hj)
    cases hp : p i with
    | true => rw [List.filter_cons_of_pos hp, List.foldl_cons, List.foldl_cons, ih]
    | false =>
      rw [List.filter_cons_of_neg (by simp [hp]), List.foldl_cons,
        M.visit_of_none (hskip i List.mem_cons_self hp _), ih]

/-- What a state holds for one key. -/
def project (st : TreeMap κ β × List ο) (k : κ) : Option β × List ο :=
  (st.1[k]?, st.2.filter fun o => M.outKey o = k)

/-- An item changes what its own key holds, as its step says, and nothing else. -/
theorem project_visit (st : TreeMap κ β × List ο) (i : ι) (k : κ) :
    M.project (M.visit st i) k =
      if M.key i = k then M.trackItem (M.project st k) i else M.project st k := by
  cases hs : M.step st.1[M.key i]? i with
  | none =>
    rw [M.visit_of_none hs]
    split_ifs with hk
    · subst hk
      simp [trackItem, project, hs]
    · rfl
  | some bo =>
    rw [M.visit_of_some hs]
    split_ifs with hk
    · subst hk
      simp [trackItem, project, hs, M.outKey_step hs]
    · have hne : compare (M.key i) k ≠ .eq := fun h => hk (LawfulEqCmp.eq_of_compare h)
      have hout : M.outKey bo.2 ≠ k := fun h => hk ((M.outKey_step hs).symm.trans h)
      simp [project, TreeMap.getElem?_insert, hne, hout]

/-- A run projects to the run of the key's own items. -/
theorem run_project (items : List ι) (st : TreeMap κ β × List ο) (k : κ) :
    M.project (items.foldl M.visit st) k =
      (items.filter fun i => M.key i = k).foldl M.trackItem (M.project st k) := by
  induction items generalizing st with
  | nil => rfl
  | cons i items ih =>
    rw [List.foldl_cons, ih, project_visit]
    by_cases hk : M.key i = k <;> simp [hk]

end KeyedMachine
