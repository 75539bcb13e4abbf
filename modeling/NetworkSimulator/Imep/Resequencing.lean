import Mathlib.Algebra.Order.BigOperators.Group.List
import NetworkSimulator.Imep.DestQueue

/-!
# Packets that wait for their turn

The packets of one source are known by the order in which it has issued them. Fewer than 64 of them are
ahead of the last one that was delivered, so their sequence numbers of eight bits compare as they do.
-/

namespace NetworkSimulator.Imep

variable {W : List (Txent ℕ)} {L n : ℕ} {t : Txent ℕ} {now : ℚ}

lemma reg_eq (a b : ℕ) : reg (a % 256) (b % 256) = Int.bmod (a - b) 256 := by
  have hmod : ((a % 256 : ℕ) - (b % 256 : ℕ) : ℤ) % (256 : ℕ) = (a - b : ℤ) % (256 : ℕ) := by omega
  unfold reg
  rw [Int.bmod_def, Int.bmod_def, hmod]

lemma bmod_small {k : ℤ} (h₁ : -128 ≤ k) (h₂ : k < 128) : Int.bmod k 256 = k := by
  rw [Int.bmod_def]
  split_ifs <;> omega

/-- A packet that is ahead by less than 64. -/
lemma reg_ahead (h₁ : L < n) (h₂ : n < L + 64) : reg (n % 256) (L % 256) = n - L := by
  rw [reg_eq]
  exact bmod_small (by omega) (by omega)

/-- Packets in sequence, all ahead of `L` by less than 64. -/
structure Window (L : ℕ) (W : List (Txent ℕ)) : Prop where
  sorted : W.Pairwise fun t u => t.pkt < u.pkt
  seqno : ∀ t ∈ W, t.seqno = t.pkt % 256
  ahead : ∀ t ∈ W, L < t.pkt
  near : ∀ t ∈ W, t.pkt < L + 64

namespace Window

lemma nil : Window L [] := ⟨List.Pairwise.nil, by simp, by simp, by simp⟩

lemma tail {ts : List (Txent ℕ)} (h : Window L (t :: ts)) : Window L ts :=
  ⟨h.sorted.of_cons, fun u hu => h.seqno u (List.mem_cons_of_mem t hu),
    fun u hu => h.ahead u (List.mem_cons_of_mem t hu), fun u hu => h.near u (List.mem_cons_of_mem t hu)⟩

/-- The window moves on to a later packet before all that wait. -/
lemma advance (h : Window L W) (hle : L ≤ n) (hall : ∀ t ∈ W, n < t.pkt) : Window n W :=
  ⟨h.sorted, h.seqno, hall, fun t ht => lt_of_lt_of_le (h.near t ht) (by omega)⟩

lemma after_head {ts : List (Txent ℕ)} (h : Window L (t :: ts)) : Window t.pkt ts :=
  h.tail.advance (h.ahead t List.mem_cons_self).le fun _ hu => List.rel_of_pairwise_cons h.sorted hu

lemma seqno_eq_iff (h : Window L W) (ht : t ∈ W) (h₁ : L < n) (h₂ : n < L + 64) :
    t.seqno = n % 256 ↔ t.pkt = n := by
  have ha := h.ahead t ht
  have hn := h.near t ht
  rw [h.seqno t ht]
  omega

/-- The head is the only packet that may be the next one. -/
lemma not_next {ts : List (Txent ℕ)} (h : Window L (t :: ts)) : ∀ u ∈ ts, u.pkt ≠ L + 1 := by
  intro u hu
  have hlt := List.rel_of_pairwise_cons h.sorted hu
  have ha := h.ahead t List.mem_cons_self
  omega

lemma mem_insert {u : Txent ℕ} : u ∈ Dstent.insert t W ↔ u = t ∨ u ∈ W := by
  induction W with
  | nil => simp [Dstent.insert]
  | cons v W ih =>
    unfold Dstent.insert
    split_ifs
    · exact List.mem_cons
    · rw [List.mem_cons, List.mem_cons, ih]
      tauto

/-- A packet is put where it belongs. -/
lemma insert (h : Window L W) (hseq : t.seqno = t.pkt % 256) (h₁ : L < t.pkt) (h₂ : t.pkt < L + 64)
    (hne : ∀ u ∈ W, u.pkt ≠ t.pkt) : Window L (Dstent.insert t W) := by
  refine ⟨?_, fun u hu => ?_, fun u hu => ?_, fun u hu => ?_⟩
  · induction W with
    | nil => exact List.pairwise_singleton _ _
    | cons v W ih =>
      have hgt : SEQ_GT v.seqno t.seqno ↔ t.pkt < v.pkt := by
        have ha := h.ahead v List.mem_cons_self
        have hn := h.near v List.mem_cons_self
        unfold SEQ_GT
        rw [h.seqno v List.mem_cons_self, hseq, reg_eq, bmod_small (by omega) (by omega)]
        omega
      have hv := hne v List.mem_cons_self
      unfold Dstent.insert
      split_ifs with hif
      · have hlt := hgt.mp hif
        refine List.pairwise_cons.mpr ⟨fun u hu => ?_, h.sorted⟩
        rcases List.mem_cons.mp hu with rfl | hu
        · exact hlt
        · exact hlt.trans (List.rel_of_pairwise_cons h.sorted hu)
      · have hlt : v.pkt < t.pkt := by
          by_contra hge
          exact hif (hgt.mpr (by omega))
        refine List.pairwise_cons.mpr ⟨fun u hu => ?_, ih h.tail fun u hu => hne u (List.mem_cons_of_mem v hu)⟩
        rcases mem_insert.mp hu with rfl | hu
        · exact hlt
        · exact List.rel_of_pairwise_cons h.sorted hu
  · rcases mem_insert.mp hu with rfl | hu
    · exact hseq
    · exact h.seqno u hu
  · rcases mem_insert.mp hu with rfl | hu
    · exact h₁
    · exact h.ahead u hu
  · rcases mem_insert.mp hu with rfl | hu
    · exact h₂
    · exact h.near u hu

end Window

namespace Dstent

variable {d : Dstent ℕ}

/-- The next packet is looked for under a number of eight bits, plus one. -/
lemma getPacket_next {ts : List (Txent ℕ)} (htx : d.txents = t :: ts) (h : Window L d.txents)
    (hnext : t.pkt = L + 1) (hwrap : L % 256 ≠ 255) :
    d.getPacket (L % 256 + 1) = ({ d with txents := ts }, some t.pkt) := by
  have hseq : t.seqno = L % 256 + 1 := by
    rw [h.seqno t (by rw [htx]; exact List.mem_cons_self), hnext]
    omega
  have hfind : d.findEntry (L % 256 + 1) = some t := by
    unfold findEntry
    rw [htx]
    exact List.find?_cons_of_pos (by simpa using hseq)
  unfold getPacket
  rw [hfind]
  simp only [delEntry, htx]
  rw [List.eraseP_cons_of_pos (by simpa using hseq)]

lemma getPacket_none (h : Window L d.txents) (hno : L % 256 = 255 ∨ ∀ t ∈ d.txents, t.pkt ≠ L + 1) :
    d.getPacket (L % 256 + 1) = (d, none) := by
  have hfind : d.findEntry (L % 256 + 1) = none := by
    unfold findEntry
    rw [List.find?_eq_none]
    intro t ht heq
    have hs := h.seqno t ht
    have ha := h.ahead t ht
    have hn := h.near t ht
    have hkey : t.seqno = L % 256 + 1 := by simpa using heq
    rcases hno with hwrap | hno
    · omega
    · exact hno t ht (by omega)
  unfold getPacket
  rw [hfind]

/-- A packet that is not the next one joins those that wait, unless it is among them. -/
lemma addEntry_window {e : ℚ} (h : Window L d.txents) (h₁ : L < n) (h₂ : n < L + 64) :
    Window L (d.addEntry e (n % 256) n).txents ∧
      ∀ u ∈ (d.addEntry e (n % 256) n).txents, u.pkt = n ∨ u ∈ d.txents := by
  unfold addEntry
  split_ifs with hsome
  · exact ⟨h, fun u hu => .inr hu⟩
  · have hne : ∀ u ∈ d.txents, u.pkt ≠ n := by
      intro u hu heq
      refine hsome ?_
      unfold findEntry
      rw [List.find?_isSome]
      exact ⟨u, hu, by simpa using (h.seqno_eq_iff hu h₁ h₂).mpr heq⟩
    refine ⟨h.insert rfl h₁ h₂ hne, fun u hu => ?_⟩
    rcases Window.mem_insert.mp hu with rfl | hu
    · exact .inl rfl
    · exact .inr hu

end Dstent

/-- The packets after `m` that wait, one after the other, go beyond a sequence number of 255. -/
def Crosses (m : ℕ) (W : List (Txent ℕ)) : Prop :=
  ∃ w, m ≤ w ∧ w % 256 = 255 ∧ ∀ i, m < i → i ≤ w + 1 → ∃ t ∈ W, t.pkt = i

lemma Crosses.mono {V : List (Txent ℕ)} {m : ℕ} (h : Crosses m V) (hsub : ∀ t ∈ V, t ∈ W) : Crosses m W := by
  obtain ⟨w, hle, hw, hall⟩ := h
  refine ⟨w, hle, hw, fun i h₁ h₂ => ?_⟩
  obtain ⟨t, ht, hi⟩ := hall i h₁ h₂
  exact ⟨t, hsub t ht, hi⟩

/-- Packets that have been taken off one after the other, up to a sequence number of 255, and the next one
that is left. -/
lemma crosses_of_front {front rest : List (Txent ℕ)} {m M : ℕ} (hrun : ∀ i, L < i → i ≤ M → ∃ u ∈ front, u.pkt = i)
    (ht : t ∈ rest) (hnext : t.pkt = M + 1) (hM : M % 256 = 255) (h₁ : L ≤ m) (h₂ : m ≤ M) :
    Crosses m (front ++ rest) := by
  refine ⟨M, h₂, hM, fun i hmi hi => ?_⟩
  by_cases heq : i = M + 1
  · exact ⟨t, List.mem_append_right _ ht, hnext.trans heq.symm⟩
  · obtain ⟨u, hu, hui⟩ := hrun i (by omega) (by omega)
    exact ⟨u, List.mem_append_left _ hu, hui⟩

namespace DstQueue

/-- The entry of a source, or an empty one. -/
def entry (x : ℤ) (q : DstQueue ℕ) : Dstent ℕ := (q.findEntry x).getD { ipaddr := x }

variable {q : DstQueue ℕ} {x y : ℤ}

lemma findEntry_ipaddr {d : Dstent ℕ} (h : q.findEntry x = some d) : d.ipaddr = x := by
  simpa using List.find?_some h

lemma findEntry_map (g : Dstent ℕ → Dstent ℕ) (hg : ∀ d, (g d).ipaddr = d.ipaddr) :
    findEntry (q.map g) x = (q.findEntry x).map g := by
  unfold findEntry
  induction q with
  | nil => rfl
  | cons d q ih =>
    rw [List.map_cons]
    by_cases h : d.ipaddr = x
    · rw [List.find?_cons_of_pos (by simpa [hg] using h), List.find?_cons_of_pos (by simpa using h)]
      rfl
    · rw [List.find?_cons_of_neg (by simpa [hg] using h), List.find?_cons_of_neg (by simpa using h), ih]

lemma entry_getPacket_of_ne (h : x ≠ y) (s : ℕ) : entry x (q.getPacket y s).1 = entry x q := by
  unfold getPacket
  cases q.findEntry y with
  | none => rfl
  | some e =>
    unfold entry
    have hmap := findEntry_map (q := q) (x := x) (fun d => if d.ipaddr = y then (d.getPacket s).1 else d) fun d => by
      split_ifs
      · exact (d.getPacket_frame s).1
      · rfl
    simp only [hmap]
    cases hf : q.findEntry x with
    | none => rfl
    | some d =>
      have hne : ¬d.ipaddr = y := by
        rw [findEntry_ipaddr hf]
        exact h
      simp [hne]

lemma getPacket_self (s : ℕ) :
    (q.getPacket x s).2 = ((entry x q).getPacket s).2 ∧ entry x (q.getPacket x s).1 = ((entry x q).getPacket s).1 := by
  unfold getPacket
  cases hf : q.findEntry x with
  | none =>
    have hentry : entry x q = { ipaddr := x } := by
      unfold entry
      rw [hf]
      rfl
    exact ⟨by rw [hentry]; rfl, by rw [hentry]; rfl⟩
  | some e =>
    have hentry : entry x q = e := by
      unfold entry
      rw [hf]
      rfl
    have hmap := findEntry_map (q := q) (x := x) (fun d => if d.ipaddr = x then (d.getPacket s).1 else d) fun d => by
      split_ifs
      · exact (d.getPacket_frame s).1
      · rfl
    rw [hentry]
    refine ⟨rfl, ?_⟩
    unfold entry
    simp only [hmap, hf, Option.map_some, Option.getD_some, if_pos (findEntry_ipaddr hf)]

lemma entry_addEntry_of_ne (h : x ≠ y) (e : ℚ) (s p : ℕ) : entry x (q.addEntry y e s p) = entry x q := by
  unfold addEntry
  split_ifs
  · unfold entry
    have hmap := findEntry_map (q := q) (x := x) (fun d => if d.ipaddr = y then d.addEntry e s p else d) fun d => by
      split_ifs
      · exact (d.addEntry_frame e s p).1
      · rfl
    rw [hmap]
    cases hf : q.findEntry x with
    | none => rfl
    | some d =>
      have hne : ¬d.ipaddr = y := by
        rw [findEntry_ipaddr hf]
        exact h
      simp [hne]
  · unfold entry findEntry
    rw [List.find?_cons_of_neg (by simpa [(Dstent.addEntry_frame _ e s p).1] using h.symm)]

lemma entry_addEntry_self (e : ℚ) (s p : ℕ) : entry x (q.addEntry x e s p) = (entry x q).addEntry e s p := by
  unfold addEntry
  cases hf : q.findEntry x with
  | none =>
    have hentry : entry x q = { ipaddr := x } := by
      unfold entry
      rw [hf]
      rfl
    rw [hentry]
    simp only [Option.isSome_none, Bool.false_eq_true, if_false]
    unfold entry findEntry
    rw [List.find?_cons_of_pos (by simp [(Dstent.addEntry_frame _ e s p).1])]
    rfl
  | some d =>
    have hentry : entry x q = d := by
      unfold entry
      rw [hf]
      rfl
    rw [hentry]
    have hmap := findEntry_map (q := q) (x := x) (fun d => if d.ipaddr = x then d.addEntry e s p else d) fun d => by
      split_ifs
      · exact (d.addEntry_frame e s p).1
      · rfl
    simp only [Option.isSome_some, if_true]
    unfold entry
    rw [hmap, hf]
    exact if_pos (findEntry_ipaddr hf)

lemma entry_deleteDst_of_ne (h : x ≠ y) : entry x (q.deleteDst y) = entry x q := by
  unfold entry findEntry deleteDst
  rw [List.find?_filter]
  refine congrArg (fun p => (q.find? p).getD { ipaddr := x }) (funext fun d => ?_)
  by_cases hd : d.ipaddr = x <;> simp [hd, h]

lemma entry_deleteDst_self : entry x (q.deleteDst x) = { ipaddr := x } := by
  have hno : (q.deleteDst x).findEntry x = none := by
    unfold findEntry deleteDst
    rw [List.find?_eq_none]
    intro d hd
    simpa using (List.mem_filter.mp hd).2
  unfold entry
  rw [hno]
  rfl

/-- No source has two entries. -/
def Apart (q : DstQueue ℕ) : Prop := (q.map Dstent.ipaddr).Nodup

lemma findEntry_of_mem (h : Apart q) {d : Dstent ℕ} (hd : d ∈ q) : q.findEntry d.ipaddr = some d := by
  unfold findEntry
  unfold Apart at h
  induction q with
  | nil => cases hd
  | cons e q ih =>
    rw [List.map_cons, List.nodup_cons] at h
    rcases List.mem_cons.mp hd with rfl | hd
    · exact List.find?_cons_of_pos (by simp)
    · have hne : ¬e.ipaddr = d.ipaddr := fun he => h.1 (List.mem_map.mpr ⟨d, hd, he.symm⟩)
      rw [List.find?_cons_of_neg (by simpa using hne), ih h.2 hd]

lemma entry_of_mem (h : Apart q) {d : Dstent ℕ} (hd : d ∈ q) : entry d.ipaddr q = d := by
  unfold entry
  rw [findEntry_of_mem h hd]
  rfl

lemma apart_getPacket (h : Apart q) (y : ℤ) (s : ℕ) : Apart (q.getPacket y s).1 := by
  unfold getPacket
  cases q.findEntry y with
  | none => exact h
  | some e =>
    have hmap : (q.map fun d => if d.ipaddr = y then (d.getPacket s).1 else d).map Dstent.ipaddr =
        q.map Dstent.ipaddr := by
      rw [List.map_map]
      refine List.map_congr_left fun d _ => ?_
      simp only [Function.comp_apply]
      split_ifs
      · exact (d.getPacket_frame s).1
      · rfl
    unfold Apart
    simp only [hmap]
    exact h

lemma apart_addEntry (h : Apart q) (y : ℤ) (e : ℚ) (s p : ℕ) : Apart (q.addEntry y e s p) := by
  unfold addEntry
  split_ifs with hsome
  · have hmap : (q.map fun d => if d.ipaddr = y then d.addEntry e s p else d).map Dstent.ipaddr =
        q.map Dstent.ipaddr := by
      rw [List.map_map]
      refine List.map_congr_left fun d _ => ?_
      simp only [Function.comp_apply]
      split_ifs
      · exact (d.addEntry_frame e s p).1
      · rfl
    unfold Apart
    rw [hmap]
    exact h
  · unfold Apart
    rw [List.map_cons, (Dstent.addEntry_frame _ e s p).1]
    refine List.nodup_cons.mpr ⟨fun hmem => hsome ?_, h⟩
    obtain ⟨d, hd, rfl⟩ := List.mem_map.mp hmem
    rw [findEntry_of_mem h hd]
    rfl

lemma apart_deleteDst (h : Apart q) (y : ℤ) : Apart (q.deleteDst y) :=
  h.sublist (List.Sublist.map _ List.filter_sublist)

lemma size_entry_le (x : ℤ) (q : DstQueue ℕ) : (entry x q).txents.length ≤ size q := by
  unfold entry
  cases hf : q.findEntry x with
  | none => exact Nat.zero_le _
  | some d =>
    have hd : d ∈ q := List.mem_of_find?_eq_some hf
    exact List.single_le_sum (fun _ _ => Nat.zero_le _) _ (List.mem_map_of_mem hd)

/-- What the loop of `getNextPacket` does to the entry of one source. -/
inductive Turn (now : ℚ) (d : Dstent ℕ) : Dstent ℕ → Option (Txent ℕ) → Prop
  /-- It is not looked at. -/
  | skipped : Turn now d d none
  | held (h : d.txents = [] ∨ d.Held now) : Turn now d { d with seqno := ILLEGAL_SEQ } none
  | pulled {t : Txent ℕ} {ts : List (Txent ℕ)} {seqno : ℕ} (htx : d.txents = t :: ts) (h : d.Pulled now t seqno) :
    Turn now d { d with seqno := seqno, txents := ts } (some t)

lemma entry_append (x : ℤ) (ds es : DstQueue ℕ) :
    entry x (ds ++ es) = if (findEntry ds x).isSome then entry x ds else entry x es := by
  unfold entry findEntry
  rw [List.find?_append]
  cases List.find? (fun d => decide (d.ipaddr = x)) ds <;> rfl

lemma getNextPacket_none {r : DstQueue ℕ} (h : q.getNextPacket now = (r, none)) :
    r.map Dstent.ipaddr = q.map Dstent.ipaddr ∧ ∀ x, Turn now (entry x q) (entry x r) none ∧
      ((entry x q).txents = [] ∨ (entry x q).Held now) := by
  rcases q.getNextPacket_cases now with ⟨hq, hall⟩ | ⟨_, _, _, _, _, _, -, -, -, -, hq⟩
  · obtain ⟨rfl, -⟩ := Prod.mk.inj (hq.symm.trans h)
    refine ⟨by rw [List.map_map]; rfl, fun x => ?_⟩
    have hmap := findEntry_map (q := q) (x := x) (fun d => { d with seqno := ILLEGAL_SEQ }) fun _ => rfl
    cases hf : q.findEntry x with
    | none =>
      have hentry : entry x q = { ipaddr := x } := by
        unfold entry
        rw [hf]
        rfl
      have hentry' : entry x (q.map fun d => { d with seqno := ILLEGAL_SEQ }) = { ipaddr := x } := by
        unfold entry
        rw [hmap, hf]
        rfl
      rw [hentry, hentry']
      exact ⟨.skipped, .inl rfl⟩
    | some d =>
      have hentry : entry x q = d := by
        unfold entry
        rw [hf]
        rfl
      have hentry' : entry x (q.map fun d => { d with seqno := ILLEGAL_SEQ }) = { d with seqno := ILLEGAL_SEQ } := by
        unfold entry
        rw [hmap, hf]
        rfl
      have hd := hall d (List.mem_of_find?_eq_some hf)
      rw [hentry, hentry']
      exact ⟨.held hd, hd⟩
  · rw [hq] at h
    cases h

lemma getNextPacket_some {r : DstQueue ℕ} {y : ℤ} (ha : Apart q) (h : q.getNextPacket now = (r, some (y, t))) :
    r.map Dstent.ipaddr = q.map Dstent.ipaddr ∧
      ∀ x, Turn now (entry x q) (entry x r) (if x = y then some t else none) := by
  rcases q.getNextPacket_cases now with ⟨hq, -⟩ | ⟨ds, d, es, u, ts, seqno, rfl, htx, hp, hall, hq⟩
  · rw [hq] at h
    cases h
  · obtain ⟨rfl, hyt⟩ := Prod.mk.inj (hq.symm.trans h)
    obtain ⟨rfl, rfl⟩ := Prod.mk.inj (Option.some.inj hyt)
    have hips : (ds.map (fun d => ({ d with seqno := ILLEGAL_SEQ } : Dstent ℕ)) ++
        { d with seqno := seqno, txents := ts } :: es).map Dstent.ipaddr = (ds ++ d :: es).map Dstent.ipaddr := by
      rw [List.map_append, List.map_append, List.map_map]
      rfl
    refine ⟨hips, fun x => ?_⟩
    have hmap := findEntry_map (q := ds) (x := x) (fun d => { d with seqno := ILLEGAL_SEQ }) fun _ => rfl
    rw [entry_append, entry_append, hmap, Option.isSome_map]
    cases hf : findEntry ds x with
    | some e =>
      -- an entry before the one that hands out a packet
      have he : e ∈ ds := List.mem_of_find?_eq_some hf
      have hne : x ≠ d.ipaddr := by
        rintro rfl
        have hmem : e ∈ ds ++ d :: es := List.mem_append_left _ he
        have heq := entry_of_mem ha hmem
        have hdeq := entry_of_mem ha (List.mem_append_right ds (List.mem_cons_self (a := d) (l := es)))
        rw [findEntry_ipaddr hf, hdeq] at heq
        have hnodup := ha
        unfold Apart at hnodup
        rw [List.map_append, List.map_cons, List.nodup_append] at hnodup
        exact hnodup.2.2 _ (List.mem_map_of_mem he) _ List.mem_cons_self (by rw [heq])
      have hentry : entry x ds = e := by
        unfold entry
        rw [hf]
        rfl
      have hentry' : entry x (ds.map fun d => { d with seqno := ILLEGAL_SEQ }) = { e with seqno := ILLEGAL_SEQ } := by
        unfold entry
        rw [hmap, hf]
        rfl
      rw [if_neg hne]
      simp only [Option.isSome_some, if_true, hentry, hentry']
      exact .held (hall e he)
    | none =>
      simp only [Option.isSome_none, Bool.false_eq_true, if_false]
      by_cases hx : x = d.ipaddr
      · have hentry : entry x (d :: es) = d := by
          unfold entry findEntry
          rw [List.find?_cons_of_pos (by simp [hx])]
          rfl
        have hentry' : entry x ({ d with seqno := seqno, txents := ts } :: es) =
            { d with seqno := seqno, txents := ts } := by
          unfold entry findEntry
          rw [List.find?_cons_of_pos (by simp [hx])]
          rfl
        rw [if_pos hx, hentry, hentry']
        exact .pulled htx hp
      · have hentry : entry x (d :: es) = entry x es := by
          unfold entry findEntry
          rw [List.find?_cons_of_neg (by simpa using Ne.symm hx)]
        have hentry' : entry x ({ d with seqno := seqno, txents := ts } :: es) = entry x es := by
          unfold entry findEntry
          rw [List.find?_cons_of_neg (by simpa using Ne.symm hx)]
        rw [if_neg hx, hentry, hentry']
        exact .skipped

end DstQueue
end NetworkSimulator.Imep
