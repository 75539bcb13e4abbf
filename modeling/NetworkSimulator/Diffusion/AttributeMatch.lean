import Mathlib.Data.List.Perm.Subperm
import NetworkSimulator.Diffusion.AttributeOrder

/-!
# Matching attributes

The matching functions of `diffusion3/lib/main/attrs.cc`. An iterator is the list of the attributes from its place
on.
-/

namespace NetworkSimulator
namespace NRAttribute

abbrev NRAttrVec := List NRAttribute

/-- The attribute that is found, with the place behind it. -/
def find_key_from (key : ℤ) : NRAttrVec → Option (NRAttribute × NRAttrVec)
  | [] => none
  | b :: start => if b.key = key then some (b, start) else find_key_from key start

def find_matching_key_from (a : NRAttribute) (start : NRAttrVec) : Option (NRAttribute × NRAttrVec) :=
  find_key_from a.key start

variable {a b : NRAttribute} {v v1 v2 itr2 itr2' : NRAttrVec} {key : ℤ} {test : NRAttribute → Option Bool}

lemma find_key_from_length (h : find_key_from key itr2 = some (b, itr2')) : itr2'.length < itr2.length := by
  induction itr2 with
  | nil => cases h
  | cons c start ih =>
    rw [find_key_from] at h
    split at h
    · cases h
      exact Nat.lt_succ_self _
    · exact (ih h).trans (Nat.lt_succ_self _)

/-- The inner loop of both one-way functions: from `itr2` on, an attribute with the key of `a` that passes their
test. -/
def search (test : NRAttribute → Option Bool) (a : NRAttribute) (itr2 : NRAttrVec) : Option Bool :=
  match _h : a.find_matching_key_from itr2 with
  | none => some false
  | some (b, itr2') =>
    match test b with
    | none => none
    | some true => some true
    | some false => search test a itr2'
termination_by itr2.length
decreasing_by exact find_key_from_length _h

/-- Their outer loop, which returns at the first attribute that the inner one finds nothing for. -/
def forAll (test : NRAttribute → Option Bool) : NRAttrVec → Option Bool
  | [] => some true
  | a :: itr1 =>
    match test a with
    | some true => forAll test itr1
    | found => found

def OneWayPerfectMatch (attr_vec1 attr_vec2 : NRAttrVec) : Option Bool :=
  forAll (fun a => a.search (fun b => if a.op = b.op then a.isEQ b else some false) attr_vec2) attr_vec1

def PerfectMatch (attr_vec1 attr_vec2 : NRAttrVec) : Option Bool :=
  if attr_vec1.length ≠ attr_vec2.length then some false
  else
    match OneWayPerfectMatch attr_vec1 attr_vec2 with
    | some true => OneWayPerfectMatch attr_vec2 attr_vec1
    | matched => matched

/-- The operators of `OneWayMatch`, of which the last ones find nothing. -/
def accepts (a b : NRAttribute) : Option Bool :=
  match a.op with
  | .EQ_ANY => some true
  | .EQ => b.isEQ a
  | .GT => b.isGT a
  | .GE => b.isGE a
  | .LT => b.isLT a
  | .LE => b.isLE a
  | .NE => b.isNE a
  | .IS | .unknown _ => some false

def OneWayMatch (attr_vec1 attr_vec2 : NRAttrVec) : Option Bool :=
  forAll (fun a =>
    if a.op = .IS then some true
    else a.search (fun b => if b.op ≠ .IS then some false else a.accepts b) attr_vec2) attr_vec1

def MatchAttrs (attr_vec1 attr_vec2 : NRAttrVec) : Option Bool :=
  match OneWayMatch attr_vec1 attr_vec2 with
  | some true => OneWayMatch attr_vec2 attr_vec1
  | matched => matched

lemma search_nil : a.search test [] = some false := by
  rw [search]
  rfl

lemma search_cons : a.search test (b :: itr2) =
    if b.key = a.key then
      match test b with
      | none => none
      | some true => some true
      | some false => a.search test itr2
    else a.search test itr2 := by
  by_cases hkey : b.key = a.key
  · have hfind : a.find_matching_key_from (b :: itr2) = some (b, itr2) := by
      rw [find_matching_key_from, find_key_from, if_pos hkey]
    rw [if_pos hkey, search]
    split
    · next hnone => rw [hfind] at hnone; cases hnone
    · next hsome => rw [hfind] at hsome; cases hsome; rfl
  · have hfind : a.find_matching_key_from (b :: itr2) = a.find_matching_key_from itr2 := by
      rw [find_matching_key_from, find_key_from, if_neg hkey, find_matching_key_from]
    rw [if_neg hkey, search, search.eq_def test a itr2, hfind]

variable (test a) in
/-- The search finds what passes the test if no test aborts. -/
lemma search_spec (h : ∀ b ∈ itr2, b.key = a.key → (test b).isSome) :
    (a.search test itr2).isSome ∧
      (a.search test itr2 = some true ↔ ∃ b ∈ itr2, b.key = a.key ∧ test b = some true) := by
  induction itr2 with
  | nil => simp [search_nil]
  | cons b itr2 ih =>
    obtain ⟨hsome, hiff⟩ := ih fun c hc => h c (List.mem_cons_of_mem b hc)
    rw [search_cons]
    by_cases hkey : b.key = a.key
    · obtain ⟨found, hfound⟩ := Option.isSome_iff_exists.mp (h b List.mem_cons_self hkey)
      cases found with
      | true => simp [hkey, hfound]
      | false => simp [hkey, hfound, hsome, hiff]
    · simp [hkey, hsome, hiff]

variable (test) in
lemma forAll_spec (h : ∀ a ∈ v, (test a).isSome) :
    (forAll test v).isSome ∧ (forAll test v = some true ↔ ∀ a ∈ v, test a = some true) := by
  induction v with
  | nil => simp [forAll]
  | cons a itr1 ih =>
    obtain ⟨hsome, hiff⟩ := ih fun c hc => h c (List.mem_cons_of_mem a hc)
    obtain ⟨found, hfound⟩ := Option.isSome_iff_exists.mp (h a List.mem_cons_self)
    cases found with
    | true => simp [forAll, hfound, hsome, hiff]
    | false => simp [forAll, hfound]

/-- The value of `b` stands in `a`'s relation to the value of `a`. -/
def Stands (a b : NRAttribute) : Prop :=
  match a.op with
  | .EQ_ANY => True
  | .EQ => b.isEQ a = some true
  | .GT => b.isGT a = some true
  | .GE => b.isGE a = some true
  | .LT => b.isLT a = some true
  | .LE => b.isLE a = some true
  | .NE => b.isNE a = some true
  | .IS | .unknown _ => False

/-- What `a` asks for: a value under its key. -/
def Meets (a b : NRAttribute) : Prop := b.key = a.key ∧ b.op = .IS ∧ a.Stands b

/-- The same attribute. -/
def Same (a b : NRAttribute) : Prop := b.key = a.key ∧ a.op = b.op ∧ a.isEQ b = some true

lemma accepts_eq_true : a.accepts b = some true ↔ a.Stands b := by
  rw [accepts, Stands]
  cases a.op <;> simp

lemma accepts_isSome (h : b.isSameKey a) : (a.accepts b).isSome := by
  obtain ⟨heq, hgt, hge⟩ := isSome_of_isSameKey h
  rw [accepts]
  cases a.op <;> simp [isLT, isLE, isNE, heq, hgt, hge]

/-- In one vector and across the two, one key has one type. -/
def OneType (v1 v2 : NRAttrVec) : Prop := ∀ a ∈ v1 ++ v2, ∀ b ∈ v1 ++ v2, a.key = b.key → a.type = b.type

lemma OneType.symm (h : OneType v1 v2) : OneType v2 v1 := fun a ha b hb =>
  h a (List.mem_append.mpr (List.mem_append.mp ha).symm) b (List.mem_append.mpr (List.mem_append.mp hb).symm)

lemma OneType.isSameKey (h : OneType v1 v2) (ha : a ∈ v1) (hb : b ∈ v2) (hkey : b.key = a.key) : b.isSameKey a :=
  ⟨h b (List.mem_append_right v1 hb) a (List.mem_append_left v2 ha) hkey, hkey⟩

lemma oneWayMatch_spec (h : OneType v1 v2) :
    (OneWayMatch v1 v2).isSome ∧
      (OneWayMatch v1 v2 = some true ↔ ∀ a ∈ v1, a.op ≠ .IS → ∃ b ∈ v2, a.Meets b) := by
  have hsearch : ∀ a ∈ v1, _ := fun a ha =>
    search_spec a (fun b => if b.op ≠ .IS then some false else a.accepts b)
      fun (b : NRAttribute) (hb : b ∈ v2) hkey => by
        by_cases hop : b.op = .IS
        · simpa [hop] using accepts_isSome (h.isSameKey ha hb hkey)
        · simp [hop]
  obtain ⟨hsome, hiff⟩ := forAll_spec (fun a =>
    if a.op = .IS then some true
    else a.search (fun b => if b.op ≠ .IS then some false else a.accepts b) v2) fun (a : NRAttribute) (ha : a ∈ v1) => by
      by_cases hop : a.op = .IS
      · simp [hop]
      · simpa [hop] using (hsearch a ha).1
  refine ⟨hsome, hiff.trans (forall₂_congr fun a ha => ?_)⟩
  by_cases hop : a.op = .IS
  · simp [hop]
  · simp only [hop, if_false, (hsearch a ha).2, ne_eq, not_false_eq_true, true_imp_iff, Meets]
    refine exists_congr fun b => and_congr_right fun _ => and_congr_right fun _ => ?_
    by_cases hb : b.op = .IS
    · simp [hb, accepts_eq_true]
    · simp [hb]

lemma oneWayPerfectMatch_spec (h : OneType v1 v2) :
    (OneWayPerfectMatch v1 v2).isSome ∧ (OneWayPerfectMatch v1 v2 = some true ↔ ∀ a ∈ v1, ∃ b ∈ v2, a.Same b) := by
  have hsearch : ∀ a ∈ v1, _ := fun a ha =>
    search_spec a (fun b => if a.op = b.op then a.isEQ b else some false)
      fun (b : NRAttribute) (hb : b ∈ v2) hkey => by
        have hsame := h.isSameKey ha hb hkey
        by_cases hop : a.op = b.op
        · simpa [hop] using (isSome_of_isSameKey (a := a) (b := b) ⟨hsame.1.symm, hsame.2.symm⟩).1
        · simp [hop]
  obtain ⟨hsome, hiff⟩ := forAll_spec
    (fun a => a.search (fun b => if a.op = b.op then a.isEQ b else some false) v2)
    fun (a : NRAttribute) (ha : a ∈ v1) => (hsearch a ha).1
  refine ⟨hsome, hiff.trans (forall₂_congr fun a ha => ?_)⟩
  rw [(hsearch a ha).2]
  refine exists_congr fun b => and_congr_right fun _ => and_congr_right fun _ => ?_
  by_cases hop : a.op = b.op
  · simp [hop]
  · simp [hop]

/-- Values that are no floats are the same if `isEQ` says so. -/
def Exact (a : NRAttribute) : Prop := a.type ≠ .FLOAT32_TYPE ∧ a.type ≠ .FLOAT64_TYPE

lemma same_iff_eq (h : a.Exact) : a.Same b ↔ a = b := by
  obtain ⟨k, o, val⟩ := a
  obtain ⟨k', o', val'⟩ := b
  by_cases hsame : k' = k ∧ o = o' ∧ val.type = val'.type
  · obtain ⟨rfl, rfl, hval⟩ := hsame
    rw [Same]
    simp only [true_and, mk.injEq]
    cases val with
    | float32 v => exact absurd rfl h.1
    | float64 v => exact absurd rfl h.2
    | int32 v =>
      cases val' with
      | int32 w => rw [isEQ_int32, NRValue.int32.injEq]
      | _ => cases hval
    | string s =>
      cases val' with
      | string t => rw [isEQ_string, NRValue.string.injEq]
      | _ => cases hval
    | blob p =>
      cases val' with
      | blob q => rw [isEQ_blob, NRValue.blob.injEq]
      | _ => cases hval
  · constructor
    · rintro ⟨hkey, hop, heq⟩
      rw [isEQ] at heq
      split at heq
      · next hsk => exact absurd ⟨hkey, hop, hsk.1⟩ hsame
      · cases heq
    · intro heq
      cases heq
      exact absurd ⟨rfl, rfl, rfl⟩ hsame

lemma perfectMatch_spec (h : OneType v1 v2) :
    PerfectMatch v1 v2 = some true ↔
      v1.length = v2.length ∧ (∀ a ∈ v1, ∃ b ∈ v2, a.Same b) ∧ ∀ b ∈ v2, ∃ a ∈ v1, b.Same a := by
  obtain ⟨hsome, hiff⟩ := oneWayPerfectMatch_spec h
  obtain ⟨-, hiff'⟩ := oneWayPerfectMatch_spec h.symm
  rw [PerfectMatch, ← hiff, ← hiff']
  by_cases hlen : v1.length = v2.length
  · obtain ⟨found, hfound⟩ := Option.isSome_iff_exists.mp hsome
    cases found <;> simp [hlen, hfound]
  · simp [hlen]

/-- Without floats and without an attribute twice, the same attributes are in both. -/
lemma perfectMatch_perm (h : OneType v1 v2) (hexact : ∀ a ∈ v1 ++ v2, a.Exact) (hnodup : v1.Nodup) :
    PerfectMatch v1 v2 = some true ↔ v1.Perm v2 := by
  have hsub : ∀ w w' : NRAttrVec, (∀ a ∈ w, a.Exact) → ((∀ a ∈ w, ∃ b ∈ w', a.Same b) ↔ w ⊆ w') := by
    intro w w' hw
    refine forall₂_congr fun a ha => ?_
    simp [same_iff_eq (hw a ha)]
  rw [perfectMatch_spec h, hsub v1 v2 fun a ha => hexact a (List.mem_append_left v2 ha),
    hsub v2 v1 fun a ha => hexact a (List.mem_append_right v1 ha)]
  constructor
  · rintro ⟨hlen, hsub, -⟩
    exact (hnodup.subperm hsub).perm_of_length_le hlen.ge
  · exact fun hperm => ⟨hperm.length_eq, hperm.subset, hperm.symm.subset⟩

/-- The three functions: a value for every request, both ways, and vectors of one size that have all attributes in
common. -/
theorem matching_spec (v1 v2 : NRAttrVec) (h : OneType v1 v2) :
    (OneWayMatch v1 v2 = some true ↔ ∀ a ∈ v1, a.op ≠ .IS → ∃ b ∈ v2, a.Meets b) ∧
      (MatchAttrs v1 v2 = some true ↔ OneWayMatch v1 v2 = some true ∧ OneWayMatch v2 v1 = some true) ∧
      (PerfectMatch v1 v2 = some true ↔
        v1.length = v2.length ∧ (∀ a ∈ v1, ∃ b ∈ v2, a.Same b) ∧ ∀ b ∈ v2, ∃ a ∈ v1, b.Same a) ∧
      ((∀ a ∈ v1 ++ v2, a.Exact) → v1.Nodup → (PerfectMatch v1 v2 = some true ↔ v1.Perm v2)) ∧
      (OneWayMatch v1 v2).isSome ∧ (MatchAttrs v1 v2).isSome ∧ (PerfectMatch v1 v2).isSome := by
  obtain ⟨hsome, hiff⟩ := oneWayMatch_spec h
  obtain ⟨hsome', -⟩ := oneWayMatch_spec h.symm
  obtain ⟨found, hfound⟩ := Option.isSome_iff_exists.mp hsome
  refine ⟨hiff, ?_, perfectMatch_spec h, perfectMatch_perm h, hsome, ?_, ?_⟩
  · rw [MatchAttrs, hfound]
    cases found <;> simp
  · rw [MatchAttrs, hfound]
    cases found
    · rfl
    · exact hsome'
  · obtain ⟨hperfect, -⟩ := oneWayPerfectMatch_spec h
    obtain ⟨hperfect', -⟩ := oneWayPerfectMatch_spec h.symm
    obtain ⟨found, hfound⟩ := Option.isSome_iff_exists.mp hperfect
    rw [PerfectMatch]
    split
    · rfl
    · rw [hfound]
      cases found
      · rfl
      · exact hperfect'

lemma oneType_of_type {t : NRType} (h : ∀ a ∈ v1 ++ v2, a.type = t) : OneType v1 v2 :=
  fun a ha b hb _ => (h a ha).trans (h b hb).symm

theorem matching_of_request :
    OneWayMatch [⟨1, .GT, .int32 3⟩] [⟨1, .IS, .int32 2⟩, ⟨1, .IS, .int32 5⟩] = some true := by
  have htype : OneType [⟨1, .GT, .int32 3⟩] [⟨1, .IS, .int32 2⟩, ⟨1, .IS, .int32 5⟩] :=
    oneType_of_type (t := .INT32_TYPE) (by simp [type, NRValue.type])
  refine (matching_spec _ _ htype).1.mpr fun a ha _ => ?_
  obtain rfl := List.mem_singleton.mp ha
  exact ⟨⟨1, .IS, .int32 5⟩, by simp, rfl, rfl, isGT_int32.mpr (by decide)⟩

/-- Two vectors with the same attributes, one of them twice in one and the other twice in the other. -/
theorem matching_not_perm :
    let x : NRAttribute := ⟨1, .IS, .int32 0⟩
    let y : NRAttribute := ⟨1, .IS, .int32 1⟩
    OneType [x, x, y] [x, y, y] ∧ PerfectMatch [x, x, y] [x, y, y] = some true ∧
      ¬List.Perm [x, x, y] [x, y, y] := by
  intro x y
  have htype : OneType [x, x, y] [x, y, y] := oneType_of_type (t := .INT32_TYPE) (by simp [type, NRValue.type, x, y])
  have hx : x.Same x := ⟨rfl, rfl, isEQ_int32.mpr rfl⟩
  have hy : y.Same y := ⟨rfl, rfl, isEQ_int32.mpr rfl⟩
  refine ⟨htype, (perfectMatch_spec htype).mpr ⟨rfl, ?_, ?_⟩, fun h => ?_⟩
  · simp [hx, hy]
  · simp [hx, hy]
  · have hxy : x ≠ y := by simp [x, y]
    have hmem : x ∈ [y, y] := h.cons_inv.subset List.mem_cons_self
    rw [List.mem_pair, or_self] at hmem
    exact hxy hmem

end NRAttribute
end NetworkSimulator
