import Mathlib.Data.List.DropRight
import Mathlib.Data.List.Infix

/-! # Reading a Moving Log in Pages

  A log grows at its newest end, and only a suffix of it is kept. A reader
  takes pages of the newest end, each behind the one before, and stops at a
  page that is not full. Between two pages the log may grow and may lose its
  oldest entries.

  A position counted from the newest end only moves back, so an entry that
  is kept is never between two pages: the reader may meet it twice, but
  does not miss it. -/

namespace AgentTraceGateway

namespace Pages

universe u

variable {α : Type u}

/-! ### Logs -/

/-- A log, and the suffix of it that is kept. -/
structure Log (α : Type u) where
  all : List α
  kept : List α
  suffix : kept <:+ all

namespace Log

/-- How many entries are gone. -/
def gone (log : Log α) : Nat := log.all.length - log.kept.length

theorem kept_eq (log : Log α) : log.kept = log.all.drop log.gone :=
  List.suffix_iff_eq_drop.mp log.suffix

theorem gone_add (log : Log α) : log.gone + log.kept.length = log.all.length :=
  Nat.sub_add_cancel log.suffix.length_le

/-- Entries come at the end, and what is gone stays gone. -/
structure Later (log log' : Log α) : Prop where
  grows : log.all <+: log'.all
  loses : log.gone ≤ log'.gone

theorem Later.refl (log : Log α) : log.Later log := ⟨List.prefix_refl _, Nat.le_refl _⟩

theorem Later.trans {a b c : Log α} (hab : a.Later b) (hbc : b.Later c) : a.Later c :=
  ⟨hab.grows.trans hbc.grows, hab.loses.trans hbc.loses⟩

/-- One more entry, behind what is still kept. -/
theorem later_push (log log' : Log α) {a : α} {kept : List α} (hkept : kept <:+ log.kept)
    (hall : log'.all = log.all ++ [a]) (hlog : log'.kept = kept ++ [a]) : log.Later log' := by
  have hlen := hkept.length_le
  have hgone := log.gone_add
  refine ⟨⟨[a], hall.symm⟩, ?_⟩
  rw [gone, gone, hall, hlog, List.length_append, List.length_append]
  omega

end Log

/-! ### Pages -/

/-- The most entries of a page; a limit of zero is none. -/
def width (limit : Nat) (kept : List α) : Nat := if limit = 0 then kept.length else limit

/-- At most `limit` entries, behind the `offset` newest. -/
def page (limit offset : Nat) (kept : List α) : List α :=
  (kept.rdrop offset).rtake (width limit kept)

theorem page_eq (limit offset : Nat) (kept : List α) :
    page limit offset kept
      = (kept.drop (kept.length - offset - width limit kept)).take
          (min (width limit kept) (kept.length - offset)) := by
  rw [page, List.rdrop, List.rtake, List.length_take, List.drop_take]
  congr 1
  · omega
  · congr 1
    omega

theorem page_length (limit offset : Nat) (kept : List α) :
    (page limit offset kept).length = min (width limit kept) (kept.length - offset) := by
  rw [page_eq, List.length_take, List.length_drop]
  omega

/-- A page is a piece of the log. -/
theorem page_of_log (limit offset : Nat) (log : Log α) :
    page limit offset log.kept
      = (log.all.drop (log.gone + (log.kept.length - offset - width limit log.kept))).take
          (min (width limit log.kept) (log.kept.length - offset)) := by
  have hdrop : log.kept.drop (log.kept.length - offset - width limit log.kept)
      = log.all.drop (log.gone + (log.kept.length - offset - width limit log.kept)) := by
    conv_lhs => rw [log.kept_eq, List.drop_drop]
    rw [← log.kept_eq]
  rw [page_eq, hdrop]

/-! ### Readers -/

/-- Where a reader stands: what it goes behind next, the pages so far, and
    whether the last one was asked for without a limit or was not full. -/
structure Reader (α : Type u) where
  offset : Nat := 0
  pages : List (List α) := []
  finished : Bool := false

namespace Reader

/-- The reader takes the next page. -/
def take (limit : Nat) (reader : Reader α) (page : List α) : Reader α where
  offset := reader.offset + limit
  pages := reader.pages ++ [page]
  finished := limit = 0 ∨ page.length < limit

theorem take_finished_iff (limit : Nat) (reader : Reader α) (page : List α) :
    (reader.take limit page).finished = true ↔ limit = 0 ∨ page.length < limit :=
  decide_eq_true_iff

/-- The pages, oldest entries first. -/
def found (reader : Reader α) : List α := reader.pages.reverse.flatten

theorem found_take (limit : Nat) (reader : Reader α) (page : List α) :
    (reader.take limit page).found = page ++ reader.found := by
  simp [found, take]

/-- Everything from here on has been read: up to the newest end the pages
    reach, and all that is kept when the reader is done. -/
def mark (reader : Reader α) (log : Log α) : Nat :=
  if reader.finished then log.gone else log.all.length - reader.offset

/-- Of the first `n` entries of the log, those from the mark on are on the
    pages, and the pages hold pieces of the log. -/
structure Covers (n : Nat) (log : Log α) (reader : Reader α) : Prop where
  begun : n ≤ log.all.length
  behind : reader.finished = false → reader.offset ≤ log.all.length
  found : ((log.all.take n).drop (reader.mark log)).Sublist reader.found
  pieces : ∀ page ∈ reader.pages, page <:+: log.all

theorem covers_start {n : Nat} {log : Log α} (hn : n ≤ log.all.length) : Covers n log {} where
  begun := hn
  behind := fun _ => Nat.zero_le _
  found := by
    show ((log.all.take n).drop (log.all.length - 0)).Sublist []
    rw [List.drop_eq_nil_of_le (by rw [List.length_take]; omega)]
  pieces := fun _ hpage => absurd hpage List.not_mem_nil

/-- When the log moves on, less is asked of the pages. -/
theorem Covers.later {n : Nat} {log log' : Log α} {reader : Reader α} (h : Covers n log reader)
    (hlater : log.Later log') : Covers n log' reader where
  begun := h.begun.trans hlater.grows.length_le
  behind := fun hfinished => (h.behind hfinished).trans hlater.grows.length_le
  found := by
    obtain ⟨added, hadded⟩ := hlater.grows
    have hlen := hlater.grows.length_le
    have hmark : reader.mark log ≤ reader.mark log' := by
      unfold mark
      split_ifs
      · exact hlater.loses
      · exact Nat.sub_le_sub_right hlen _
    have hfront : log'.all.take n = log.all.take n := by
      rw [← hadded, List.take_append_of_le_length h.begun]
    rw [hfront]
    exact (List.drop_sublist_drop_left _ hmark).trans h.found
  pieces := fun page hpage => (h.pieces page hpage).trans hlater.grows.isInfix

/-- A list is cut into a front and the rest, and a longer rest does no harm. -/
theorem drop_sublist_pieces (l : List α) {i j m n : Nat} (h : j ≤ i + m) :
    ((l.take n).drop i).Sublist ((l.drop i).take m ++ (l.take n).drop j) := by
  have hfront : ((l.take n).drop i).take m <+: (l.drop i).take m :=
    ((List.take_prefix n l).drop i).take m
  have hrest : ((l.take n).drop i).drop m = (l.take n).drop (i + m) := List.drop_drop
  rw [← List.take_append_drop m ((l.take n).drop i), hrest]
  exact hfront.sublist.append (List.drop_sublist_drop_left _ h)

/-- A page is one of the limit that was asked for, or everything, where the
    limit was too large to be understood. -/
def Serves (limit served : Nat) (page : List α) : Prop :=
  served = limit ∨ served = 0 ∧ page.length < limit

/-- A page takes the mark further back; the next one may have another limit. -/
theorem Covers.take {n limit served : Nat} {log : Log α} {reader : Reader α}
    (h : Covers n log reader) (hfinished : reader.finished = false)
    (hserves : Serves limit served (page served reader.offset log.kept)) :
    Covers n log (reader.take limit (page served reader.offset log.kept)) := by
  have hgone := log.gone_add
  have hlen := page_length served reader.offset log.kept
  have hbehind := h.behind hfinished
  -- a page that is not full, or has no limit, reaches the oldest entry kept
  have hdone : limit = 0 ∨ (page served reader.offset log.kept).length < limit →
      log.kept.length - reader.offset - width served log.kept = 0 := by
    unfold width at hlen ⊢
    rcases hserves with rfl | ⟨rfl, -⟩
    · split_ifs at hlen ⊢ <;> omega
    · rw [if_pos rfl]
      omega
  have hmore : ¬ (limit = 0 ∨ (page served reader.offset log.kept).length < limit) →
      width served log.kept = limit := by
    intro hfull
    rcases hserves with rfl | ⟨-, hshort⟩
    · exact if_neg fun hzero => hfull (Or.inl hzero)
    · exact absurd (Or.inr hshort) hfull
  refine ⟨h.begun, fun hfull => ?_, ?_, ?_⟩
  · rw [Bool.eq_false_iff, Ne, take_finished_iff] at hfull
    have hwidth := hmore hfull
    show reader.offset + limit ≤ log.all.length
    omega
  · -- the page begins at the new mark, or in front of it
    have hmark : log.gone + (log.kept.length - reader.offset - width served log.kept)
        ≤ (reader.take limit (page served reader.offset log.kept)).mark log := by
      unfold mark
      split_ifs with hshort
      · have hzero := hdone ((take_finished_iff ..).mp hshort)
        omega
      · rw [take_finished_iff] at hshort
        have hwidth := hmore hshort
        unfold Reader.take
        dsimp only
        omega
    have hfound : ((log.all.take n).drop (log.all.length - reader.offset)).Sublist reader.found := by
      have hfound := h.found
      rw [mark, hfinished] at hfound
      exact hfound
    have hpieces := drop_sublist_pieces log.all (n := n) (j := log.all.length - reader.offset)
      (i := log.gone + (log.kept.length - reader.offset - width served log.kept))
      (m := min (width served log.kept) (log.kept.length - reader.offset)) (by omega)
    refine (List.drop_sublist_drop_left _ hmark).trans (hpieces.trans ?_)
    rw [found_take, ← page_of_log]
    exact List.Sublist.append_left hfound _
  · intro p hp
    rcases List.mem_append.mp hp with hp | hp
    · exact h.pieces p hp
    · rw [List.mem_singleton.mp hp, page_of_log]
      exact (List.take_prefix _ _).isInfix.trans (List.drop_suffix _ _).isInfix

/-- A reader that is done has found what was there before it began and is
    kept still. -/
theorem Covers.finished {n : Nat} {log : Log α} {reader : Reader α} (h : Covers n log reader)
    (hfinished : reader.finished = true) : ((log.all.take n).drop log.gone).Sublist reader.found := by
  have hfound := h.found
  rw [mark, if_pos hfinished] at hfound
  exact hfound

end Reader

end Pages

end AgentTraceGateway
