import NetworkSimulator.Diffusion.Attributes

/-!
# The order of attributes

Integers have one order that all six comparisons show. `isGT` calls a string greater than every other string, and
`isGE` does not tell the beginning of a blob from the blob.
-/

namespace NetworkSimulator
open Library

namespace NRAttribute
variable {a b c : NRAttribute} {v w : ℤ} {s t u : CString} {p q r : List Byte}

/-- The six answers for `a` and `b` are those of one order. -/
structure SixViews (a b : NRAttribute) : Prop where
  one : (a.isLT b = some true ∧ a.isEQ b ≠ some true ∧ a.isGT b ≠ some true) ∨
    (a.isLT b ≠ some true ∧ a.isEQ b = some true ∧ a.isGT b ≠ some true) ∨
    (a.isLT b ≠ some true ∧ a.isEQ b ≠ some true ∧ a.isGT b = some true)
  ge : a.isGE b = some true ↔ a.isGT b = some true ∨ a.isEQ b = some true
  le : a.isLE b = some true ↔ a.isLT b = some true ∨ a.isEQ b = some true
  ne : a.isNE b = some true ↔ a.isEQ b ≠ some true
  swap : a.isGT b = some true ↔ b.isLT a = some true

/-- What `a` and `b` have to be for that. -/
def NotMixedUp (a b : NRAttribute) : Prop :=
  match a.val, b.val with
  | .string s, .string t => ¬s.chars < t.chars
  | .blob s, .blob t => (s <+: t → s = t) ∧ (t <+: s → t = s)
  | _, _ => True

/-- What `isGT` takes for greater is greater, or another string comes last. -/
def NotTurnedRound (a b c : NRAttribute) : Prop :=
  match a.val, b.val, c.val with
  | .string s, .string t, .string u => s = u → t = u
  | _, _, _ => True

lemma isSameKey_mk {k : ℤ} {o o' : NROperator} {v w : NRValue} (h : v.type = w.type) :
    (⟨k, o, v⟩ : NRAttribute).isSameKey ⟨k, o', w⟩ := ⟨h, rfl⟩

lemma isLT_iff (h : a.isSameKey b) : a.isLT b = some true ↔ a.isGE b ≠ some true := by
  obtain ⟨-, -, hsome⟩ := isSome_of_isSameKey h
  obtain ⟨ge, hge⟩ := Option.isSome_iff_exists.mp hsome
  rw [isLT, hge]
  cases ge <;> simp

lemma isLE_iff (h : a.isSameKey b) : a.isLE b = some true ↔ a.isGT b ≠ some true := by
  obtain ⟨-, hsome, -⟩ := isSome_of_isSameKey h
  obtain ⟨gt, hgt⟩ := Option.isSome_iff_exists.mp hsome
  rw [isLE, hgt]
  cases gt <;> simp

lemma isNE_iff (h : a.isSameKey b) : a.isNE b = some true ↔ a.isEQ b ≠ some true := by
  obtain ⟨hsome, -, -⟩ := isSome_of_isSameKey h
  obtain ⟨eq, heq⟩ := Option.isSome_iff_exists.mp hsome
  rw [isNE, heq]
  cases eq <;> simp

section Values
variable {k : ℤ} {o o' : NROperator}

lemma isEQ_int32 : isEQ ⟨k, o, .int32 v⟩ ⟨k, o', .int32 w⟩ = some true ↔ v = w := by
  rw [isEQ, if_pos (isSameKey_mk (v := .int32 v) (w := .int32 w) rfl)]
  simp

lemma isGT_int32 : isGT ⟨k, o, .int32 v⟩ ⟨k, o', .int32 w⟩ = some true ↔ w < v := by
  rw [isGT, if_pos (isSameKey_mk (v := .int32 v) (w := .int32 w) rfl)]
  simp

lemma isGE_int32 : isGE ⟨k, o, .int32 v⟩ ⟨k, o', .int32 w⟩ = some true ↔ w ≤ v := by
  rw [isGE, if_pos (isSameKey_mk (v := .int32 v) (w := .int32 w) rfl)]
  simp

lemma strncmp_val {n : ℕ} (h : min s.len t.len ≤ n) : strncmp n s.val t.val = lexCmp s.chars t.chars := by
  refine strncmp_ends s.notMem t.notMem (Nat.lt_of_succ_le (le_trans ?_ h))
  simp [CString.len, CString.val]

lemma isEQ_string : isEQ ⟨k, o, .string s⟩ ⟨k, o', .string t⟩ = some true ↔ s = t := by
  rw [isEQ, if_pos (isSameKey_mk (v := .string s) (w := .string t) rfl)]
  change (if s.len ≠ t.len then _ else _) = _ ↔ _
  by_cases hlen : s.len = t.len
  · rw [if_neg (not_not.mpr hlen), strncmp_val (min_le_left _ _), CString.ext_iff, ← lexCmp_eq_eq_iff]
    simp
  · rw [if_pos hlen]
    simpa using fun heq => hlen (congrArg CString.len heq)

lemma isGT_string : isGT ⟨k, o, .string s⟩ ⟨k, o', .string t⟩ = some true ↔ s ≠ t := by
  rw [isGT, if_pos (isSameKey_mk (v := .string s) (w := .string t) rfl)]
  change some (strncmp (min s.len t.len) s.val t.val != .eq) = _ ↔ _
  rw [strncmp_val le_rfl, ne_eq, CString.ext_iff, ← lexCmp_eq_eq_iff]
  simp

lemma isGE_string : isGE ⟨k, o, .string s⟩ ⟨k, o', .string t⟩ = some true ↔ ¬s.chars < t.chars := by
  rw [isGE, if_pos (isSameKey_mk (v := .string s) (w := .string t) rfl)]
  change some (strcmp s.val t.val != .lt) = _ ↔ _
  rw [CString.val, CString.val, strcmp_ends s.notMem t.notMem, ← lexCmp_eq_lt_iff]
  simp

lemma isEQ_blob : isEQ ⟨k, o, .blob p⟩ ⟨k, o', .blob q⟩ = some true ↔ p = q := by
  rw [isEQ, if_pos (isSameKey_mk (v := .blob p) (w := .blob q) rfl)]
  change (if p.length ≠ q.length then _ else _) = _ ↔ _
  by_cases hlen : p.length = q.length
  · rw [if_neg (not_not.mpr hlen), ← memcmp_eq_iff hlen]
    simp
  · rw [if_pos hlen]
    simpa using fun heq => hlen (congrArg List.length heq)

lemma not_lt_of_begins (h : p <+: q) : ¬q < p := h.le

lemma lt_of_begins (h : p <+: q) (hne : p ≠ q) : p < q :=
  (lt_trichotomy p q).resolve_right fun hor => hor.elim hne (not_lt_of_begins h)

lemma isGT_blob : isGT ⟨k, o, .blob p⟩ ⟨k, o', .blob q⟩ = some true ↔ q < p := by
  rw [isGT, if_pos (isSameKey_mk (v := .blob p) (w := .blob q) rfl)]
  change (if memcmp (min p.length q.length) p q = .gt then _ else _) = _ ↔ _
  rw [memcmp_min]
  by_cases hpre : p <+: q ∨ q <+: p
  · rw [if_pos hpre]
    rcases hpre with hpq | hqp
    · have hlen := hpq.length_le
      simpa [Nat.not_lt.mpr hlen] using not_lt.mp (not_lt_of_begins hpq)
    · by_cases heq : q = p
      · subst heq
        simp
      · have hlen : q.length < p.length :=
          lt_of_le_of_ne hqp.length_le fun h => heq (hqp.eq_of_length h)
        simpa [hlen] using lt_of_begins hqp heq
  · rw [if_neg hpre, ← lexCmp_eq_gt_iff]
    have hne : lexCmp p q ≠ .eq := fun h => hpre (Or.inl (lexCmp_eq_eq_iff.mp h ▸ List.prefix_rfl))
    simp [hne]

lemma isGE_blob : isGE ⟨k, o, .blob p⟩ ⟨k, o', .blob q⟩ = some true ↔ p <+: q ∨ ¬p < q := by
  rw [isGE, if_pos (isSameKey_mk (v := .blob p) (w := .blob q) rfl)]
  change (if memcmp (min p.length q.length) p q ≠ .lt then _ else _) = _ ↔ _
  rw [memcmp_min]
  by_cases hpre : p <+: q ∨ q <+: p
  · rw [if_pos hpre]
    have hge : p <+: q ∨ ¬p < q := hpre.imp_right not_lt_of_begins
    simpa using hge
  · rw [if_neg hpre, ← lexCmp_eq_lt_iff]
    have hpq : ¬p <+: q := fun h => hpre (Or.inl h)
    simp [hpq]

end Values

/-- Comparisons that follow a linear order agree. -/
lemma sixViews_of_order {β : Type*} [LinearOrder β] {x y : β} (h : a.isSameKey b)
    (heq : a.isEQ b = some true ↔ x = y) (hgt : a.isGT b = some true ↔ y < x)
    (hge : a.isGE b = some true ↔ ¬x < y) (hge' : b.isGE a = some true ↔ ¬y < x) : SixViews a b := by
  have h' : b.isSameKey a := ⟨h.1.symm, h.2.symm⟩
  have hlt : a.isLT b = some true ↔ x < y := by rw [isLT_iff h, ne_eq, hge, not_not]
  have hlt' : b.isLT a = some true ↔ y < x := by rw [isLT_iff h', ne_eq, hge', not_not]
  have hle : a.isLE b = some true ↔ ¬y < x := by rw [isLE_iff h, ne_eq, hgt]
  refine ⟨?_, ?_, ?_, isNE_iff h, hgt.trans hlt'.symm⟩
  · simp only [ne_eq, hlt, heq, hgt]
    rcases lt_trichotomy x y with hxy | hxy | hxy
    · exact Or.inl ⟨hxy, hxy.ne, lt_asymm hxy⟩
    · exact Or.inr (Or.inl ⟨hxy ▸ lt_irrefl x, hxy, hxy ▸ lt_irrefl x⟩)
    · exact Or.inr (Or.inr ⟨lt_asymm hxy, hxy.ne', hxy⟩)
  · rw [hge, hgt, heq, not_lt, le_iff_lt_or_eq, eq_comm]
  · rw [hle, hlt, heq, not_lt, le_iff_lt_or_eq]

lemma sixViews_int32 {k : ℤ} {o o' : NROperator} : SixViews ⟨k, o, .int32 v⟩ ⟨k, o', .int32 w⟩ :=
  sixViews_of_order (isSameKey_mk rfl) isEQ_int32 isGT_int32 (isGE_int32.trans not_lt.symm)
    (isGE_int32.trans not_lt.symm)

lemma sixViews_string {k : ℤ} {o o' : NROperator} :
    SixViews ⟨k, o, .string s⟩ ⟨k, o', .string t⟩ ↔ ¬s.chars < t.chars := by
  constructor
  · rintro ⟨-, -, -, -, hswap⟩ hlt
    have h' : isSameKey ⟨k, o', .string t⟩ ⟨k, o, .string s⟩ := isSameKey_mk rfl
    rw [isLT_iff h', ne_eq, isGE_string, isGT_string, not_not] at hswap
    have hne : s ≠ t := fun heq => lt_irrefl t.chars (heq ▸ hlt)
    exact lt_asymm hlt (hswap.mp hne)
  · intro hge
    refine sixViews_of_order (isSameKey_mk rfl) (isEQ_string.trans CString.ext_iff) ?_ isGE_string isGE_string
    rw [isGT_string, ne_eq, CString.ext_iff]
    constructor
    · exact fun hne => ((lt_trichotomy _ _).resolve_left hge).resolve_left hne
    · exact fun hgt => hgt.ne'

lemma sixViews_blob {k : ℤ} {o o' : NROperator} :
    SixViews ⟨k, o, .blob p⟩ ⟨k, o', .blob q⟩ ↔ (p <+: q → p = q) ∧ (q <+: p → q = p) := by
  constructor
  · rintro ⟨-, hge, -, -, hswap⟩
    rw [isGE_blob, isEQ_blob, isGT_blob] at hge
    have h' : isSameKey ⟨k, o', .blob q⟩ ⟨k, o, .blob p⟩ := isSameKey_mk rfl
    rw [isLT_iff h', ne_eq, isGE_blob, isGT_blob, not_or, not_not] at hswap
    constructor
    · intro hpq
      by_contra hne
      have hlt := lt_of_begins hpq hne
      exact (hge.mp (Or.inl hpq)).elim (lt_asymm hlt) hne
    · intro hqp
      by_contra hne
      exact (hswap.mp (lt_of_begins hqp hne)).1 hqp
  · rintro ⟨hpq, hqp⟩
    refine sixViews_of_order (isSameKey_mk rfl) isEQ_blob isGT_blob (isGE_blob.trans ?_) (isGE_blob.trans ?_)
    · exact or_iff_right_of_imp fun hpre => hpq hpre ▸ lt_irrefl p
    · exact or_iff_right_of_imp fun hpre => hqp hpre ▸ lt_irrefl q

/-- The comparisons are one order on integers, on strings where the first does not come before the second, and on
blobs of which neither is the beginning of the other; `isGT` is transitive but for a string that is compared with
another one and back. -/
theorem sixViews_iff (a b c : NRAttribute) (hab : a.isSameKey b) (hbc : b.isSameKey c)
    (htype : a.type ≠ .FLOAT32_TYPE ∧ a.type ≠ .FLOAT64_TYPE) :
    (SixViews a b ↔ NotMixedUp a b) ∧
      ((a.isGT b = some true → b.isGT c = some true → a.isGT c = some true) ↔ NotTurnedRound a b c) := by
  obtain ⟨k, o, val⟩ := a
  obtain ⟨k', o', val'⟩ := b
  obtain ⟨k'', o'', val''⟩ := c
  obtain ⟨hval, rfl : k = k'⟩ := hab
  obtain ⟨hval', rfl : k = k''⟩ := hbc
  cases val with
  | float32 v => exact absurd rfl htype.1
  | float64 v => exact absurd rfl htype.2
  | int32 v =>
    cases val' with
    | int32 w =>
      cases val'' with
      | int32 x =>
        refine ⟨iff_of_true sixViews_int32 trivial, iff_of_true ?_ trivial⟩
        rw [isGT_int32, isGT_int32, isGT_int32]
        exact fun hwv hxw => hxw.trans hwv
      | _ => cases hval'
    | _ => cases hval
  | string s =>
    cases val' with
    | string t =>
      cases val'' with
      | string u =>
        refine ⟨sixViews_string, ?_⟩
        rw [isGT_string, isGT_string, isGT_string]
        change _ ↔ (s = u → t = u)
        constructor
        · intro htrans hsu
          by_contra htu
          exact htrans (fun hst => htu (hst ▸ hsu)) htu hsu
        · exact fun hround _ htu hsu => htu (hround hsu)
      | _ => cases hval'
    | _ => cases hval
  | blob p =>
    cases val' with
    | blob q =>
      cases val'' with
      | blob r =>
        refine ⟨sixViews_blob, iff_of_true ?_ trivial⟩
        rw [isGT_blob, isGT_blob, isGT_blob]
        exact fun hqp hrq => hrq.trans hqp
      | _ => cases hval'
    | _ => cases hval

theorem sixViews_of_integers : SixViews ⟨0, .IS, .int32 3⟩ ⟨0, .GT, .int32 5⟩ :=
  (sixViews_iff ⟨0, .IS, .int32 3⟩ ⟨0, .GT, .int32 5⟩ ⟨0, .EQ, .int32 7⟩ (isSameKey_mk rfl) (isSameKey_mk rfl)
    ⟨by decide, by decide⟩).1.mpr trivial

/-- `"a"` is less and greater than `"b"`, which is greater than `"a"`, and of a blob and a longer one that starts
with it none is less. -/
theorem mixed_up :
    let a : NRAttribute := ⟨0, .IS, .string ⟨[97], by decide⟩⟩
    let b : NRAttribute := ⟨0, .IS, .string ⟨[98], by decide⟩⟩
    let c : NRAttribute := ⟨0, .IS, .blob [1]⟩
    let d : NRAttribute := ⟨0, .IS, .blob [1, 2]⟩
    ¬SixViews a b ∧ a.isGT b = some true ∧ b.isGT a = some true ∧ a.isGT a = some false ∧ ¬SixViews c d := by
  intro a b c d
  refine ⟨fun h => ?_, by decide, by decide, by decide, fun h => ?_⟩
  · exact absurd (h.swap.mp (by decide)) (by decide)
  · exact absurd (h.ge.mp (by decide)) (by decide)

end NRAttribute
end NetworkSimulator
