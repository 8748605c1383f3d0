import Mathlib.Tactic

/-!
# Indexes that are built while they are used

An index maps the keys of a list to their positions.  It has the first keys
only, and a search that does not find its key there goes on in the list and
adds the keys that it passes to the index.  The index may have a key more than
once, and nothing is assumed about which of its positions is found.
-/

namespace LazyIndex

universe u

variable {Key : Type u}

def upTo (keys : List Key) (count : ℕ) : List (Key × ℕ) :=
  (keys.take count).zipIdx.reverse

def Indexes (keys : List Key) (index : List (Key × ℕ)) : Prop :=
  index.length ≤ keys.length ∧ index = upTo keys index.length

/-- A search in the index finds some position that the index has for the key,
if there is one. -/
structure Finds (find : List (Key × ℕ) → Key → Option ℕ) : Prop where
  found : ∀ {index wanted position}, find index wanted = some position →
    (wanted, position) ∈ index
  missed : ∀ {index wanted}, find index wanted = none →
    ∀ position, (wanted, position) ∉ index

def extend [DecidableEq Key] (wanted : Key) :
    List Key → ℕ → List (Key × ℕ) → Option ℕ × List (Key × ℕ)
  | [], _, index => (none, index)
  | key :: keys, position, index =>
      if key = wanted then (some position, (key, position) :: index)
      else extend wanted keys (position + 1) ((key, position) :: index)

def search [DecidableEq Key] (find : List (Key × ℕ) → Key → Option ℕ)
    (keys : List Key) (index : List (Key × ℕ)) (wanted : Key) :
    Option ℕ × List (Key × ℕ) :=
  match find index wanted with
  | some position => (some position, index)
  | none => extend wanted (keys.drop index.length) index.length index

variable {keys : List Key} {index : List (Key × ℕ)} {count position : ℕ}
  {key wanted : Key}

theorem mem_upTo :
    (key, position) ∈ upTo keys count ↔
      position < count ∧ keys[position]? = some key := by
  unfold upTo
  rw [List.mem_reverse, List.mk_mem_zipIdx_iff_getElem?, List.getElem?_take]
  by_cases hlt : position < count
  · simp [hlt]
  · simp [hlt]

theorem upTo_succ (hkey : keys[count]? = some key) :
    upTo keys (count + 1) = (key, count) :: upTo keys count := by
  have hlt : count < keys.length := (List.getElem?_eq_some_iff.mp hkey).1
  have hlength : (keys.take count).length = count :=
    List.length_take_of_le hlt.le
  unfold upTo
  rw [List.take_add_one, hkey, List.zipIdx_append, List.reverse_append, hlength]
  simp

@[simp] theorem length_upTo (hcount : count ≤ keys.length) :
    (upTo keys count).length = count := by
  simp [upTo, hcount]

theorem indexes_upTo (hcount : count ≤ keys.length) :
    Indexes keys (upTo keys count) := by
  unfold Indexes
  rw [length_upTo hcount]
  exact ⟨hcount, rfl⟩

theorem indexes_nil (keys : List Key) : Indexes keys [] :=
  ⟨Nat.zero_le _, rfl⟩

theorem Indexes.mem (hindex : Indexes keys index) :
    (key, position) ∈ index ↔
      position < index.length ∧ keys[position]? = some key := by
  conv_lhs => rw [hindex.2]
  exact mem_upTo

theorem Indexes.congr {changed : List Key} (hindex : Indexes keys index)
    (hlength : index.length ≤ changed.length)
    (hkeys : changed.take index.length = keys.take index.length) :
    Indexes changed index := by
  refine ⟨hlength, ?_⟩
  unfold upTo
  rw [hkeys]
  exact hindex.2

theorem Indexes.append (hindex : Indexes keys index) (more : List Key) :
    Indexes (keys ++ more) index := by
  apply hindex.congr
  · rw [List.length_append]
    exact Nat.le_add_right_of_le hindex.1
  · exact List.take_append_of_le_length hindex.1

theorem Indexes.set (hindex : Indexes keys index) {changed : ℕ} {key : Key}
    (hkept : index.length ≤ changed ∨ keys[changed]? = some key) :
    Indexes (keys.set changed key) index := by
  apply hindex.congr
  · rw [List.length_set]
    exact hindex.1
  · rcases hkept with hbehind | hsame
    · exact List.take_set_of_le hbehind
    · obtain ⟨hlt, heq⟩ := List.getElem?_eq_some_iff.mp hsame
      rw [← heq, List.set_getElem_self]

/-! ## Searching -/

variable [DecidableEq Key]

theorem extend_spec (wanted : Key) (rest : List Key) :
    ∀ position index, position ≤ keys.length → keys.drop position = rest →
      index = upTo keys position →
      (extend wanted rest position index).1 =
          (rest.findIdx? fun key => decide (key = wanted)).map
            (position + ·) ∧
        Indexes keys (extend wanted rest position index).2 := by
  induction rest with
  | nil =>
      rintro position index hle _ rfl
      exact ⟨rfl, indexes_upTo hle⟩
  | cons key rest ih =>
      rintro position index hle hdrop rfl
      have hkey : keys[position]? = some key := by
        rw [← List.head?_drop, hdrop]
        rfl
      have hlt : position < keys.length := (List.getElem?_eq_some_iff.mp hkey).1
      have hnext : keys.drop (position + 1) = rest := by
        rw [← List.tail_drop, hdrop]
        rfl
      unfold extend
      rw [← upTo_succ hkey, List.findIdx?_cons]
      by_cases hwanted : key = wanted
      · rw [if_pos hwanted, if_pos (by simpa using hwanted)]
        exact ⟨rfl, indexes_upTo hlt⟩
      · rw [if_neg hwanted, if_neg (by simpa using hwanted)]
        obtain ⟨hanswer, hindex⟩ :=
          ih (position + 1) (upTo keys (position + 1)) hlt hnext rfl
        refine ⟨?_, hindex⟩
        rw [hanswer, Option.map_map]
        congr 1
        funext distance
        simp only [Function.comp_apply]
        omega

def Once (keys : List Key) (count : ℕ) (wanted : Key) : Prop :=
  (keys.take count).countP (fun key => decide (key = wanted)) ≤ 1

theorem eq_of_once {keys : List Key} {first second : ℕ}
    (honce : Once keys count wanted)
    (hfirst : first < count) (hfirstKey : keys[first]? = some wanted)
    (hsecond : second < count) (hsecondKey : keys[second]? = some wanted) :
    first = second := by
  obtain ⟨hfirstLt, hfirstEq⟩ := List.getElem?_eq_some_iff.mp hfirstKey
  obtain ⟨hsecondLt, hsecondEq⟩ := List.getElem?_eq_some_iff.mp hsecondKey
  have htwice : ∀ {i j : ℕ} (hi : i < (keys.take count).length)
      (hj : j < (keys.take count).length), i < j →
        (keys.take count)[i] = wanted → (keys.take count)[j] = wanted →
          False := by
    intro i j hi hj hlt hiKey hjKey
    have hdup : List.Duplicate wanted (keys.take count) := by
      rw [List.duplicate_iff_exists_distinct_get]
      exact ⟨⟨i, hi⟩, ⟨j, hj⟩, hlt, hiKey.symm, hjKey.symm⟩
    have htwo : 2 ≤ (keys.take count).countP
        (fun key => decide (key = wanted)) :=
      List.duplicate_iff_two_le_count.mp hdup
    unfold Once at honce
    omega
  have hfirstTake : first < (keys.take count).length := by
    rw [List.length_take]
    omega
  have hsecondTake : second < (keys.take count).length := by
    rw [List.length_take]
    omega
  have hfirstAt : (keys.take count)[first] = wanted := by
    rw [List.getElem_take]
    exact hfirstEq
  have hsecondAt : (keys.take count)[second] = wanted := by
    rw [List.getElem_take]
    exact hsecondEq
  rcases lt_trichotomy first second with hlt | heq | hgt
  · exact (htwice hfirstTake hsecondTake hlt hfirstAt hsecondAt).elim
  · exact heq
  · exact (htwice hsecondTake hfirstTake hgt hsecondAt hfirstAt).elim

theorem search_spec {find : List (Key × ℕ) → Key → Option ℕ}
    (hfind : Finds find) (hindex : Indexes keys index)
    (honce : Once keys index.length wanted) :
    (search find keys index wanted).1 =
        keys.findIdx? (fun key => decide (key = wanted)) ∧
      Indexes keys (search find keys index wanted).2 := by
  unfold search
  cases hfound : find index wanted with
  | some position =>
      obtain ⟨hlt, hkey⟩ := hindex.mem.mp (hfind.found hfound)
      obtain ⟨hbound, heq⟩ := List.getElem?_eq_some_iff.mp hkey
      refine ⟨?_, hindex⟩
      symm
      rw [List.findIdx?_eq_some_iff_getElem]
      refine ⟨hbound, by simpa using heq, ?_⟩
      intro earlier hearlier hsame
      have hkeyEarlier : keys[earlier]? = some wanted := by
        rw [List.getElem?_eq_getElem (hearlier.trans hbound)]
        simpa using hsame
      have heq := eq_of_once honce (hearlier.trans hlt) hkeyEarlier hlt hkey
      omega
  | none =>
      obtain ⟨hanswer, hextended⟩ := extend_spec wanted
        (keys.drop index.length) index.length index hindex.1 rfl hindex.2
      refine ⟨?_, hextended⟩
      have hmissed : (keys.take index.length).findIdx?
          (fun key => decide (key = wanted)) = none := by
        rw [List.findIdx?_eq_none_iff]
        intro key hkey
        obtain ⟨position, hposition⟩ := List.mem_iff_getElem?.mp hkey
        rw [List.getElem?_take] at hposition
        by_cases hlt : position < index.length
        · rw [if_pos hlt] at hposition
          by_contra hsame
          have hwanted : key = wanted := by simpa using hsame
          rw [hwanted] at hposition
          exact hfind.missed hfound position
            (hindex.mem.mpr ⟨hlt, hposition⟩)
        · rw [if_neg hlt] at hposition
          cases hposition
      rw [hanswer]
      conv_rhs => rw [← List.take_append_drop index.length keys]
      rw [List.findIdx?_append, hmissed, List.length_take_of_le hindex.1]
      simp [Nat.add_comm]

end LazyIndex
