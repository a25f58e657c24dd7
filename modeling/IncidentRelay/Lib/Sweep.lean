import Mathlib.Data.Finset.Sort
import Mathlib.Data.List.Chain
import Mathlib.Data.List.MinMax

/-!
# Sweeping candidates

Candidates take half-open spans of a line, each with a rank. The sweep cuts the line at the
ends of the spans, gives each piece to the candidate of the highest rank that covers it, the
first of several, and joins pieces that touch and belong together.

 * `sweep_lined`: the result is in order, without overlaps and with nothing left to join.
 * `sweep_winner`: at each point it says what the best candidate there says.
-/

namespace IncidentRelay

/-- What holds from a start up to a stop. -/
structure Span (T ε : Type*) where
  start : T
  stop : T
  value : ε
  deriving DecidableEq

namespace Sweep

variable {T ε ι κ : Type*} [LinearOrder T]

def Covers (s : Span T ε) (t : T) : Prop := s.start ≤ t ∧ t < s.stop

instance (s : Span T ε) (t : T) : Decidable (Covers s t) := by
  unfold Covers
  infer_instance

/-- The span within limits, when something is left of it. -/
def clip (lower upper : T) (s : Span T ε) : Option (Span T ε) :=
  let start := max s.start lower
  let stop := min s.stop upper
  if stop ≤ start then none else some ⟨start, stop, s.value⟩

/-- The points at which something begins or ends. -/
def points (lower upper : T) (spans : List (Span T ε)) : List T :=
  (lower :: upper :: spans.flatMap fun s => [s.start, s.stop]).toFinset.sort (· ≤ ·)

/-- What is next to each other. -/
def pieces (l : List T) : List (T × T) := l.zip l.tail

/-- The best of the candidates that cover a piece. -/
def winner [LinearOrder κ] (rank : ε → κ) (spans : List (Span T ε)) (from_ upTo : T) :
    Option (Span T ε) :=
  (spans.filter fun s => s.start ≤ from_ ∧ upTo ≤ s.stop).argmax fun s => rank s.value

/-- One more span, or a longer last one. -/
def appendOrMerge [DecidableEq ι] (identity : ε → ι) (spans : List (Span T ε)) (next : Span T ε) :
    List (Span T ε) :=
  match spans.getLast? with
  | none => spans ++ [next]
  | some last =>
    if last.stop = next.start ∧ identity last.value = identity next.value then
      spans.dropLast ++ [{ last with stop := next.stop }]
    else spans ++ [next]

/-- The pieces with their winners. -/
def won [LinearOrder κ] (rank : ε → κ) (lower upper : T) (spans : List (Span T ε)) :
    List (Span T ε) :=
  (pieces (points lower upper spans)).filterMap fun piece =>
    (winner rank spans piece.1 piece.2).map fun w => ⟨piece.1, piece.2, w.value⟩

def sweep [LinearOrder κ] [DecidableEq ι] (rank : ε → κ) (identity : ε → ι) (lower upper : T)
    (candidates : List (Span T ε)) : List (Span T ε) :=
  (won rank lower upper (candidates.filterMap (clip lower upper))).foldl (appendOrMerge identity) []

/-! ## Pieces -/

section Pieces

variable {l : List T}

omit [LinearOrder T] in
theorem mem_pieces_cons {a b : T} {p : T × T} :
    p ∈ pieces (a :: b :: l) ↔ p = (a, b) ∨ p ∈ pieces (b :: l) := List.mem_cons

/-- Nothing lies inside a piece. -/
theorem outside_of_mem_pieces (hl : l.Pairwise (· < ·)) {p : T × T} (hp : p ∈ pieces l) :
    p.1 < p.2 ∧ ∀ x ∈ l, x ≤ p.1 ∨ p.2 ≤ x := by
  induction l with
  | nil => cases hp
  | cons a l ih =>
    cases l with
    | nil => cases hp
    | cons b l =>
      obtain ⟨hhead, htail⟩ := List.pairwise_cons.mp hl
      -- the piece is the first one, or lies behind it
      rcases mem_pieces_cons.mp hp with rfl | hrest
      · refine ⟨hhead b List.mem_cons_self, fun x hx => ?_⟩
        rcases List.mem_cons.mp hx with rfl | hx
        · exact .inl le_rfl
        · refine .inr ?_
          rcases List.mem_cons.mp hx with rfl | hx
          · exact le_rfl
          · exact ((List.pairwise_cons.mp htail).1 x hx).le
      · obtain ⟨hlt, hout⟩ := ih htail hrest
        have hmem : p.1 ∈ b :: l := (List.of_mem_zip hrest).1
        refine ⟨hlt, fun x hx => ?_⟩
        rcases List.mem_cons.mp hx with rfl | hx
        · exact .inl (hhead p.1 hmem).le
        · exact hout x hx

/-- Each point between the first and the last is in a piece. -/
theorem exists_mem_pieces {t : T} {a : T} (hl : (a :: l).Pairwise (· < ·)) (hfirst : a ≤ t) {b : T}
    (hb : b ∈ a :: l) (hlast : t < b) : ∃ p ∈ pieces (a :: l), p.1 ≤ t ∧ t < p.2 := by
  induction l generalizing a with
  | nil =>
    obtain rfl := List.mem_singleton.mp hb
    exact absurd hlast (not_lt.mpr hfirst)
  | cons c l ih =>
    rcases lt_or_ge t c with hbefore | hafter
    · exact ⟨(a, c), List.mem_cons_self, hfirst, hbefore⟩
    · have hb' : b ∈ c :: l := by
        rcases List.mem_cons.mp hb with rfl | hb
        · exact absurd hlast (not_lt.mpr hfirst)
        · exact hb
      obtain ⟨p, hp, hin⟩ := ih (List.pairwise_cons.mp hl).2 hafter hb'
      exact ⟨p, mem_pieces_cons.mpr (.inr hp), hin⟩

/-- What lies between two points lies in a piece. -/
theorem exists_mem_pieces_of {t a b : T} (hl : l.Pairwise (· < ·)) (ha : a ∈ l) (hfirst : a ≤ t)
    (hb : b ∈ l) (hlast : t < b) : ∃ p ∈ pieces l, p.1 ≤ t ∧ t < p.2 := by
  obtain ⟨c, l, rfl⟩ := List.exists_cons_of_ne_nil (List.ne_nil_of_mem ha)
  refine exists_mem_pieces hl ?_ hb hlast
  rcases List.mem_cons.mp ha with rfl | ha
  · exact hfirst
  · exact ((List.pairwise_cons.mp hl).1 a ha).le.trans hfirst

/-- One piece ends before the next begins. -/
theorem pieces_pairwise (hl : l.Pairwise (· < ·)) : (pieces l).Pairwise fun p q => p.2 ≤ q.1 := by
  induction l with
  | nil => exact .nil
  | cons a l ih =>
    cases l with
    | nil => exact .nil
    | cons b l =>
      obtain ⟨-, htail⟩ := List.pairwise_cons.mp hl
      refine List.pairwise_cons.mpr ⟨fun q hq => ?_, ih htail⟩
      rcases List.mem_cons.mp (List.of_mem_zip hq).1 with heq | hq
      · exact heq.symm.le
      · exact ((List.pairwise_cons.mp htail).1 _ hq).le

variable {lower upper : T} {spans : List (Span T ε)}

theorem points_pairwise : (points lower upper spans).Pairwise (· < ·) :=
  (Finset.sortedLT_sort _).pairwise

/-- The points are the bounds, and where something starts or ends. -/
theorem mem_points {x : T} : x ∈ points lower upper spans ↔
    x = lower ∨ x = upper ∨ ∃ s ∈ spans, x = s.start ∨ x = s.stop := by
  unfold points
  rw [Finset.mem_sort, List.mem_toFinset, List.mem_cons, List.mem_cons, List.mem_flatMap]
  simp

end Pieces

/-! ## Winners -/

section Winners

variable [LinearOrder κ] {rank : ε → κ} {lower upper : T} {candidates : List (Span T ε)}

/-- A clipped span is within its candidate and the limits. -/
theorem mem_clipped {s : Span T ε} : s ∈ candidates.filterMap (clip lower upper) ↔
    ∃ c ∈ candidates, s = ⟨max c.start lower, min c.stop upper, c.value⟩ ∧ s.start < s.stop := by
  rw [List.mem_filterMap]
  constructor
  · rintro ⟨c, hc, hclip⟩
    unfold clip at hclip
    dsimp only at hclip
    split at hclip
    · cases hclip
    · next hleft =>
      cases hclip
      exact ⟨c, hc, rfl, not_le.mp hleft⟩
  · rintro ⟨c, hc, rfl, hleft⟩
    exact ⟨c, hc, if_neg (not_le.mpr hleft)⟩

/-- A clipped span covers the points of its candidate that are within the limits. -/
theorem covers_clipped {c : Span T ε} {t : T} :
    Covers (⟨max c.start lower, min c.stop upper, c.value⟩ : Span T ε) t ↔
      Covers c t ∧ lower ≤ t ∧ t < upper := by
  unfold Covers
  rw [max_le_iff, lt_min_iff]
  tauto

/-- In a piece, what covers it covers each of its points. -/
theorem covers_piece_iff {spans : List (Span T ε)} {p : T × T}
    (hp : p ∈ pieces (points lower upper spans)) {t : T} (ht : p.1 ≤ t ∧ t < p.2) {s : Span T ε}
    (hs : s ∈ spans) : s.start ≤ p.1 ∧ p.2 ≤ s.stop ↔ Covers s t := by
  obtain ⟨-, hout⟩ := outside_of_mem_pieces points_pairwise hp
  have hstart := hout s.start (mem_points.mpr (.inr (.inr ⟨s, hs, .inl rfl⟩)))
  have hstop := hout s.stop (mem_points.mpr (.inr (.inr ⟨s, hs, .inr rfl⟩)))
  constructor
  · rintro ⟨hfrom, hupTo⟩
    exact ⟨hfrom.trans ht.1, ht.2.trans_le hupTo⟩
  · rintro ⟨hfrom, hupTo⟩
    exact ⟨hstart.resolve_right fun h => absurd (hfrom.trans_lt ht.2) (not_lt.mpr h),
      hstop.resolve_left fun h => absurd (hupTo.trans_le h) (not_lt.mpr ht.1)⟩

/-- The best of the spans that cover a point. -/
def best (rank : ε → κ) (spans : List (Span T ε)) (t : T) : Option (Span T ε) :=
  (spans.filter fun s => Covers s t).argmax fun s => rank s.value

/-- The best is one that covers, with none above it. -/
theorem best_eq_some {spans : List (Span T ε)} {t : T} {c : Span T ε}
    (h : best rank spans t = some c) :
    c ∈ spans ∧ Covers c t ∧ ∀ d ∈ spans, Covers d t → rank d.value ≤ rank c.value := by
  obtain ⟨hmem, hcovers⟩ := List.mem_filter.mp (List.argmax_mem h)
  refine ⟨hmem, of_decide_eq_true hcovers, fun d hd hcover => ?_⟩
  have hfilter : d ∈ spans.filter fun s => Covers s t :=
    List.mem_filter.mpr ⟨hd, decide_eq_true hcover⟩
  exact List.le_of_mem_argmax (f := fun s : Span T ε => rank s.value) hfilter h

/-- There is a best where one covers. -/
theorem exists_best {spans : List (Span T ε)} {t : T} :
    (∃ c, best rank spans t = some c) ↔ ∃ c ∈ spans, Covers c t := by
  constructor
  · rintro ⟨c, hc⟩
    exact ⟨c, (best_eq_some hc).1, (best_eq_some hc).2.1⟩
  · rintro ⟨c, hc, hcovers⟩
    refine Option.ne_none_iff_exists'.mp fun hnone => ?_
    have hnil := List.argmax_eq_none.mp hnone
    exact List.eq_nil_iff_forall_not_mem.mp hnil c
      (List.mem_filter.mpr ⟨hc, decide_eq_true hcovers⟩)

/-- The best among images. -/
theorem argmax_map {α β : Type*} (f : β → κ) (g : α → β) (l : List α) :
    (l.map g).argmax f = (l.argmax (f ∘ g)).map g := by
  induction l using List.reverseRecOn with
  | nil => rfl
  | append_singleton l a ih =>
    rw [List.map_append, List.map_singleton, List.argmax_concat, List.argmax_concat, ih]
    cases l.argmax (f ∘ g) with
    | none => rfl
    | some c =>
      dsimp only [Option.map_some, Function.comp_apply]
      split <;> rfl

/-- Within the limits, a clipped span is the best one when its candidate is. -/
theorem best_clipped {t : T} (ht : lower ≤ t ∧ t < upper) :
    (best rank (candidates.filterMap (clip lower upper)) t).map (·.value) =
      (best rank candidates t).map (·.value) := by
  have hclipped : (candidates.filterMap (clip lower upper)).filter (fun s => Covers s t) =
      (candidates.filter fun s => Covers s t).map fun c =>
        ⟨max c.start lower, min c.stop upper, c.value⟩ := by
    -- by induction on the candidates; clipping keeps the order of those that are left
    induction candidates with
    | nil => rfl
    | cons c candidates ih =>
      have hcovers := @covers_clipped T ε _ lower upper c t
      by_cases hempty : min c.stop upper ≤ max c.start lower
      · -- nothing of it is left, so it does not cover the point
        have hout : ¬Covers c t := fun h =>
          absurd (hempty.trans (hcovers.mpr ⟨h, ht⟩).1) (not_le.mpr (hcovers.mpr ⟨h, ht⟩).2)
        have hnone : clip lower upper c = none := if_pos hempty
        rw [List.filterMap_cons_none hnone, List.filter_cons_of_neg (by simpa using hout)]
        exact ih
      · have hsome : clip lower upper c =
            some ⟨max c.start lower, min c.stop upper, c.value⟩ := if_neg hempty
        rw [List.filterMap_cons_some hsome]
        by_cases hin : Covers c t
        · rw [List.filter_cons_of_pos (p := fun s => Covers s t)
              (decide_eq_true (hcovers.mpr ⟨hin, ht⟩)),
            List.filter_cons_of_pos (p := fun s => Covers s t) (decide_eq_true hin), List.map_cons]
          exact congrArg _ ih
        · have hout := mt (fun h => (hcovers.mp h).1) hin
          rw [List.filter_cons_of_neg (by simpa using hout),
            List.filter_cons_of_neg (by simpa using hin)]
          exact ih
  unfold best
  rw [hclipped, argmax_map, Option.map_map]
  rfl

/-- **Within a piece the winner is the best** of each instant. -/
theorem winner_eq_best {spans : List (Span T ε)} {p : T × T}
    (hp : p ∈ pieces (points lower upper spans)) {t : T} (ht : p.1 ≤ t ∧ t < p.2) :
    winner rank spans p.1 p.2 = best rank spans t := by
  unfold winner best
  congr 1
  refine List.filter_congr fun s hs => ?_
  rw [decide_eq_decide]
  exact covers_piece_iff hp ht hs

end Winners

/-! ## Joining -/

section Joining

variable {identity : ε → ι} {spans : List (Span T ε)} {next : Span T ε}

/-- In order, without overlaps, and with nothing left to join. -/
structure Lined (identity : ε → ι) (spans : List (Span T ε)) : Prop where
  ordered : spans.Pairwise fun a b => a.stop ≤ b.start
  proper : ∀ s ∈ spans, s.start < s.stop
  joined : spans.IsChain fun a b => ¬(a.stop = b.start ∧ identity a.value = identity b.value)

/-- Something with the identity covers the point. -/
def Says (identity : ε → ι) (spans : List (Span T ε)) (t : T) (i : ι) : Prop :=
  ∃ s ∈ spans, Covers s t ∧ identity s.value = i

variable [DecidableEq ι]

/-- A span is joined to the last one or stands behind it. -/
theorem appendOrMerge_cases (identity : ε → ι) (spans : List (Span T ε)) (next : Span T ε) :
    (∃ before last, spans = before ++ [last] ∧ last.stop = next.start ∧
      identity last.value = identity next.value ∧
      appendOrMerge identity spans next = before ++ [{ last with stop := next.stop }]) ∨
    (appendOrMerge identity spans next = spans ++ [next] ∧ ∀ last ∈ spans.getLast?,
      ¬(last.stop = next.start ∧ identity last.value = identity next.value)) := by
  unfold appendOrMerge
  rcases List.eq_nil_or_concat spans with rfl | ⟨before, last, rfl⟩
  · exact .inr ⟨rfl, nofun⟩
  · rw [List.concat_eq_append, List.getLast?_concat, List.dropLast_concat]
    dsimp only
    split_ifs with hjoin
    · exact .inl ⟨before, last, rfl, hjoin.1, hjoin.2, rfl⟩
    · refine .inr ⟨rfl, fun other hother => ?_⟩
      cases hother
      exact hjoin

/-- One more span keeps the line, when it begins behind all of it. -/
theorem Lined.append (h : Lined identity spans) (hnext : next.start < next.stop)
    (hafter : ∀ s ∈ spans, s.stop ≤ next.start) :
    Lined identity (appendOrMerge identity spans next) ∧
      ∀ s ∈ appendOrMerge identity spans next, s.stop ≤ next.stop := by
  obtain ⟨hordered, hproper, hjoined⟩ := h
  -- the span extends the last one, or begins a new one
  rcases appendOrMerge_cases identity spans next with
    ⟨before, last, rfl, htouch, -, heq⟩ | ⟨heq, hapart⟩
  · rw [heq]
    obtain ⟨hbefore, -, hbeforeLast⟩ := List.pairwise_append.mp hordered
    obtain ⟨hchain, -, hchainLast⟩ := List.isChain_append.mp hjoined
    have hlast := hproper last (by simp)
    refine ⟨⟨?_, ?_, ?_⟩, ?_⟩
    · refine List.pairwise_append.mpr ⟨hbefore, List.pairwise_singleton _ _, fun a ha b hb => ?_⟩
      obtain rfl := List.mem_singleton.mp hb
      exact hbeforeLast a ha last (List.mem_singleton_self _)
    · intro s hs
      rcases List.mem_append.mp hs with hs | hs
      · exact hproper s (List.mem_append_left _ hs)
      · obtain rfl := List.mem_singleton.mp hs
        exact (hlast.trans_eq htouch).trans hnext
    · -- the longer span begins where the last one did
      refine List.isChain_append.mpr ⟨hchain, List.isChain_singleton _, fun a ha b hb => ?_⟩
      cases hb
      exact hchainLast a ha last rfl
    · intro s hs
      rcases List.mem_append.mp hs with hs | hs
      · exact ((hafter s (List.mem_append_left _ hs)).trans_lt hnext).le
      · obtain rfl := List.mem_singleton.mp hs
        exact le_rfl
  · rw [heq]
    refine ⟨⟨?_, ?_, ?_⟩, ?_⟩
    · refine List.pairwise_append.mpr ⟨hordered, List.pairwise_singleton _ _, fun a ha b hb => ?_⟩
      obtain rfl := List.mem_singleton.mp hb
      exact hafter a ha
    · intro s hs
      rcases List.mem_append.mp hs with hs | hs
      · exact hproper s hs
      · obtain rfl := List.mem_singleton.mp hs
        exact hnext
    · refine List.isChain_append.mpr ⟨hjoined, List.isChain_singleton _, fun a ha b hb => ?_⟩
      cases hb
      exact hapart a ha
    · intro s hs
      rcases List.mem_append.mp hs with hs | hs
      · exact ((hafter s hs).trans_lt hnext).le
      · obtain rfl := List.mem_singleton.mp hs
        exact le_rfl

/-- What is said at a point, with one more span. -/
theorem says_append (hproper : ∀ s ∈ spans, s.start < s.stop) (hnext : next.start < next.stop)
    (t : T) (i : ι) : Says identity (appendOrMerge identity spans next) t i ↔
      Says identity spans t i ∨ (Covers next t ∧ identity next.value = i) := by
  have hsnoc : ∀ (before : List (Span T ε)) (s : Span T ε), Says identity (before ++ [s]) t i ↔
      Says identity before t i ∨ (Covers s t ∧ identity s.value = i) := by
    intro before s
    unfold Says
    simp only [List.mem_append, List.mem_singleton, or_and_right, exists_or, exists_eq_left]
  rcases appendOrMerge_cases identity spans next with
    ⟨before, last, rfl, htouch, hsame, heq⟩ | ⟨heq, -⟩
  · rw [heq, hsnoc, hsnoc, or_assoc]
    refine or_congr Iff.rfl ?_
    have hlast := hproper last (by simp)
    -- the two spans touch
    unfold Covers
    dsimp only
    rw [hsame]
    constructor
    · rintro ⟨⟨hfrom, hupTo⟩, hi⟩
      rcases lt_or_ge t last.stop with hbefore | hbehind
      · exact .inl ⟨⟨hfrom, hbefore⟩, hi⟩
      · exact .inr ⟨⟨htouch ▸ hbehind, hupTo⟩, hi⟩
    · rintro (⟨⟨hfrom, hupTo⟩, hi⟩ | ⟨⟨hfrom, hupTo⟩, hi⟩)
      · exact ⟨⟨hfrom, (hupTo.trans_eq htouch).trans hnext⟩, hi⟩
      · exact ⟨⟨(hlast.trans_eq htouch).le.trans hfrom, hupTo⟩, hi⟩
  · rw [heq, hsnoc]

/-- A span begins where one of those that were joined does, and has its value. -/
theorem exists_start_append {s : Span T ε} (hs : s ∈ appendOrMerge identity spans next) :
    ∃ s' ∈ spans ++ [next], s'.start = s.start ∧ s'.value = s.value := by
  rcases appendOrMerge_cases identity spans next with ⟨before, last, rfl, -, -, heq⟩ | ⟨heq, -⟩
  · rw [heq] at hs
    rcases List.mem_append.mp hs with hs | hs
    · exact ⟨s, List.mem_append_left _ (List.mem_append_left _ hs), rfl, rfl⟩
    · obtain rfl := List.mem_singleton.mp hs
      exact ⟨last, by simp, rfl, rfl⟩
  · rw [heq] at hs
    exact ⟨s, hs, rfl, rfl⟩

/-- Spans in order are joined to a line. -/
theorem foldl_appendOrMerge {ws : List (Span T ε)} (hordered : ws.Pairwise fun a b => a.stop ≤ b.start)
    (hproper : ∀ w ∈ ws, w.start < w.stop) (h : Lined identity spans)
    (hafter : ∀ s ∈ spans, ∀ w ∈ ws, s.stop ≤ w.start) :
    Lined identity (ws.foldl (appendOrMerge identity) spans) ∧
      (∀ t i, Says identity (ws.foldl (appendOrMerge identity) spans) t i ↔
        Says identity (spans ++ ws) t i) ∧
      ∀ s ∈ ws.foldl (appendOrMerge identity) spans,
        ∃ s' ∈ spans ++ ws, s'.start = s.start ∧ s'.value = s.value := by
  -- by induction on the spans that come, in their order
  induction ws generalizing spans with
  | nil =>
    rw [List.append_nil]
    exact ⟨h, fun _ _ => Iff.rfl, fun s hs => ⟨s, hs, rfl, rfl⟩⟩
  | cons w ws ih =>
    obtain ⟨hfirst, hrest⟩ := List.pairwise_cons.mp hordered
    have hw := hproper w List.mem_cons_self
    obtain ⟨hlined, hends⟩ := h.append hw fun s hs => hafter s hs w List.mem_cons_self
    obtain ⟨hall, hsays, hstarts⟩ := ih hrest (fun v hv => hproper v (List.mem_cons_of_mem _ hv))
      hlined fun s hs v hv => (hends s hs).trans (hfirst v hv)
    refine ⟨hall, fun t i => ?_, fun s hs => ?_⟩
    -- what a list says at a point is said by one of its parts
    · have hsplit : ∀ a b : List (Span T ε), Says identity (a ++ b) t i ↔
          Says identity a t i ∨ Says identity b t i := by
        intro a b
        unfold Says
        simp only [List.mem_append, or_and_right, exists_or]
      have hcons : Says identity (w :: ws) t i ↔
          (Covers w t ∧ identity w.value = i) ∨ Says identity ws t i := by
        unfold Says
        simp
      rw [List.foldl_cons, hsays, hsplit, says_append h.proper hw, hsplit, hcons, or_assoc]
    · obtain ⟨s', hs', hstart, hvalue⟩ := hstarts s hs
      rcases List.mem_append.mp hs' with hs' | hs'
      · obtain ⟨s'', hs'', hstart', hvalue'⟩ := exists_start_append hs'
        refine ⟨s'', ?_, hstart'.trans hstart, hvalue'.trans hvalue⟩
        rcases List.mem_append.mp hs'' with hs'' | hs''
        · exact List.mem_append_left _ hs''
        · obtain rfl := List.mem_singleton.mp hs''
          exact List.mem_append_right _ List.mem_cons_self
      · exact ⟨s', List.mem_append_right _ (List.mem_cons_of_mem _ hs'), hstart, hvalue⟩

end Joining

/-! ## The sweep -/

section Result

variable [LinearOrder κ] [DecidableEq ι] {rank : ε → κ} {identity : ε → ι} {lower upper : T}
  {candidates : List (Span T ε)}

/-- What is won in a piece. -/
theorem mem_won {spans : List (Span T ε)} {w : Span T ε} : w ∈ won rank lower upper spans ↔
    ∃ p ∈ pieces (points lower upper spans), ∃ c, winner rank spans p.1 p.2 = some c ∧
      w = ⟨p.1, p.2, c.value⟩ := by
  unfold won
  rw [List.mem_filterMap]
  simp only [Option.map_eq_some_iff]
  constructor
  · rintro ⟨p, hp, c, hc, rfl⟩
    exact ⟨p, hp, c, hc, rfl⟩
  · rintro ⟨p, hp, c, hc, rfl⟩
    exact ⟨p, hp, c, hc, rfl⟩

/-- The pieces that are won are in order. -/
theorem won_ordered (spans : List (Span T ε)) :
    (won rank lower upper spans).Pairwise fun a b => a.stop ≤ b.start := by
  unfold won
  rw [List.pairwise_filterMap]
  refine (pieces_pairwise points_pairwise).imp fun {p q} hpq a ha b hb => ?_
  obtain ⟨-, -, rfl⟩ := Option.map_eq_some_iff.mp ha
  obtain ⟨-, -, rfl⟩ := Option.map_eq_some_iff.mp hb
  exact hpq

/-- None of them is empty. -/
theorem won_proper (spans : List (Span T ε)) :
    ∀ w ∈ won rank lower upper spans, w.start < w.stop := by
  intro w hw
  obtain ⟨p, hp, c, -, rfl⟩ := mem_won.mp hw
  exact (outside_of_mem_pieces points_pairwise hp).1

/-- **The result is a line.** -/
theorem sweep_lined : Lined identity (sweep rank identity lower upper candidates) :=
  (foldl_appendOrMerge (won_ordered _) (won_proper _)
    ⟨.nil, nofun, .nil⟩ nofun).1

/-- **At each point within the limits it says what the best candidate there says.** -/
theorem sweep_winner {t : T} {i : ι} : Says identity (sweep rank identity lower upper candidates) t i ↔
    (lower ≤ t ∧ t < upper) ∧ ∃ c, best rank candidates t = some c ∧ identity c.value = i := by
  have hsays := (@foldl_appendOrMerge T ε ι _ identity [] _
    (won rank lower upper (candidates.filterMap (clip lower upper))) (won_ordered _) (won_proper _)
    ⟨.nil, nofun, .nil⟩ nofun).2.1 t i
  have hvalue : ∀ ht : lower ≤ t ∧ t < upper, (∃ c, best rank candidates t = some c ∧
      identity c.value = i) ↔ ∃ c, best rank (candidates.filterMap (clip lower upper)) t = some c ∧
        identity c.value = i := by
    intro ht
    have hmap : ∀ found : Option (Span T ε), (∃ c, found = some c ∧ identity c.value = i) ↔
        (found.map (·.value)).map identity = some i := by
      intro found
      cases found <;> simp
    rw [hmap, hmap, best_clipped ht]
  rw [sweep, hsays, List.nil_append]
  constructor
  · rintro ⟨w, hw, hcovers, rfl⟩
    obtain ⟨p, hp, c, hc, rfl⟩ := mem_won.mp hw
    rw [winner_eq_best hp hcovers] at hc
    -- what wins was clipped to the limits
    obtain ⟨hmem, hcover, -⟩ := best_eq_some hc
    obtain ⟨d, -, rfl, -⟩ := mem_clipped.mp hmem
    have ht := (covers_clipped.mp hcover).2
    exact ⟨ht, (hvalue ht).mpr ⟨_, hc, rfl⟩⟩
  · rintro ⟨ht, hbest⟩
    obtain ⟨c, hc, rfl⟩ := (hvalue ht).mp hbest
    -- the point is in a piece
    have hlower : lower ∈ points lower upper (candidates.filterMap (clip lower upper)) :=
      mem_points.mpr (.inl rfl)
    have hupper : upper ∈ points lower upper (candidates.filterMap (clip lower upper)) :=
      mem_points.mpr (.inr (.inl rfl))
    obtain ⟨p, hp, hin⟩ := exists_mem_pieces_of points_pairwise hlower ht.1 hupper ht.2
    refine ⟨⟨p.1, p.2, c.value⟩, mem_won.mpr ⟨p, hp, c, ?_, rfl⟩, hin, rfl⟩
    rw [winner_eq_best hp hin, hc]

/-- A span of the result has the value of the best candidate at its start. -/
theorem sweep_start {s : Span T ε} (hs : s ∈ sweep rank identity lower upper candidates) :
    ∃ c, best rank candidates s.start = some c ∧ c.value = s.value := by
  obtain ⟨w, hw, hstart, hvalue⟩ := (@foldl_appendOrMerge T ε ι _ identity [] _
    (won rank lower upper (candidates.filterMap (clip lower upper))) (won_ordered _) (won_proper _)
    ⟨.nil, nofun, .nil⟩ nofun).2.2 s hs
  rw [List.nil_append] at hw
  obtain ⟨p, hp, c, hc, rfl⟩ := mem_won.mp hw
  have hlt := (outside_of_mem_pieces points_pairwise hp).1
  rw [winner_eq_best hp ⟨le_rfl, hlt⟩] at hc
  obtain ⟨hmem, hcover, -⟩ := best_eq_some hc
  obtain ⟨d, -, rfl, -⟩ := mem_clipped.mp hmem
  have hbest := @best_clipped T ε κ _ _ rank lower upper candidates p.1 (covers_clipped.mp hcover).2
  rw [hc] at hbest
  obtain ⟨best', hbest', heq⟩ := Option.map_eq_some_iff.mp hbest.symm
  exact ⟨best', hstart ▸ hbest', heq.trans hvalue⟩

end Result

end Sweep

end IncidentRelay
