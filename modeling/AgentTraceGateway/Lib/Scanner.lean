import AgentTraceGateway.Lib.Chunked
import Mathlib.Data.List.Induction

/-! # Resumable Scanners

  A scanner looks at the front of a buffer and either waits for more input,
  refuses what it sees, or consumes an item and goes on. A decision once
  taken is not revised by later input. Pushing chunks through a buffer then
  gives what one scan of the whole input gives, as long as nothing in the
  input is refused; a refusal drops the buffer, so after it the outcome
  depends on the cut. -/

namespace AgentTraceGateway

universe u v

/-- What the front of a buffer holds. -/
inductive ScanStep (α : Type u) (β : Type v) where
  | wait
  | refuse
  | item (emitted : Option β) (rest : List α)

/-- A front-of-buffer reader whose decisions are final. -/
structure Scanner (α : Type u) (β : Type v) where
  next : List α → ScanStep α β
  progress : ∀ {buf emitted rest}, next buf = .item emitted rest → rest.length < buf.length
  item_stable : ∀ {buf emitted rest} (more : List α),
    next buf = .item emitted rest → next (buf ++ more) = .item emitted (rest ++ more)
  refuse_stable : ∀ {buf} (more : List α), next buf = .refuse → next (buf ++ more) = .refuse

namespace Scanner

variable {α : Type u} {β : Type v} (s : Scanner α β)

/-- Every item at the front of a buffer, and what is left to wait on:
    `none` when the scan ended in a refusal. -/
def scan (buf : List α) : List β × Option (List α) :=
  match h : s.next buf with
  | .wait => ([], some buf)
  | .refuse => ([], none)
  | .item emitted rest =>
    have : rest.length < buf.length := s.progress h
    let more := scan rest
    (emitted.toList ++ more.1, more.2)
termination_by buf.length

/-- Append a chunk to the buffer and scan; a refusal empties the buffer.
    Returns what this chunk completed, and the buffer. -/
def push (buf chunk : List α) : List β × List α :=
  let found := s.scan (buf ++ chunk)
  (found.1, found.2.getD [])

/-- Push one chunk and collect what it completed. -/
def feed (st : List β × List α) (chunk : List α) : List β × List α :=
  let found := s.push st.2 chunk
  (st.1 ++ found.1, found.2)

/-- All that a sequence of pushes returns, and the buffer it leaves. -/
def push_all (chunks : List (List α)) : List β × List α :=
  chunks.foldl s.feed ([], [])

/-! ### One scan -/

theorem scan_wait {buf : List α} (h : s.next buf = .wait) : s.scan buf = ([], some buf) := by
  rw [scan]
  split <;> simp_all

theorem scan_refuse {buf : List α} (h : s.next buf = .refuse) : s.scan buf = ([], none) := by
  rw [scan]
  split <;> simp_all

theorem scan_item {buf rest : List α} {emitted : Option β}
    (h : s.next buf = .item emitted rest) :
    s.scan buf = (emitted.toList ++ (s.scan rest).1, (s.scan rest).2) := by
  rw [scan]
  split
  · simp_all
  · simp_all
  · rename_i e r heq
    obtain ⟨rfl, rfl⟩ : emitted = e ∧ rest = r := by simpa [h] using heq
    rfl

theorem scan_nil : (s.scan []).1 = [] := by
  cases h : s.next [] with
  | wait => rw [s.scan_wait h]
  | refuse => rw [s.scan_refuse h]
  | item emitted rest => exact absurd (s.progress h) (by simp)

/-- A remainder holds no further item. -/
theorem scan_remainder (buf rest : List α) (hscan : (s.scan buf).2 = some rest) :
    s.next rest = .wait := by
  induction buf using Scanner.scan.induct s with
  | case1 buf h =>
    rw [s.scan_wait h] at hscan
    cases hscan
    exact h
  | case2 buf h => simp [s.scan_refuse h] at hscan
  | case3 buf emitted r h _ ih =>
    rw [s.scan_item h] at hscan
    exact ih hscan

/-- Scanning in two pieces: the items of the first piece, then those of its
    remainder with the second piece behind it. -/
theorem scan_resume {buf rest : List α} (more : List α) (hscan : (s.scan buf).2 = some rest) :
    s.scan (buf ++ more)
      = ((s.scan buf).1 ++ (s.scan (rest ++ more)).1, (s.scan (rest ++ more)).2) := by
  induction buf using Scanner.scan.induct s with
  | case1 buf h =>
    -- nothing was taken off, so the remainder is the buffer
    rw [s.scan_wait h] at hscan ⊢
    obtain rfl : buf = rest := Option.some.inj hscan
    rw [List.nil_append]
  | case2 buf h =>
    rw [s.scan_refuse h] at hscan
    cases hscan
  | case3 buf emitted r h _ ih =>
    -- the same item is taken off with more behind it
    rw [s.scan_item h] at hscan
    rw [s.scan_item (s.item_stable more h), s.scan_item h, ih hscan, List.append_assoc]

/-- Later input does not take a refusal back. -/
theorem scan_refused_append {buf : List α} (more : List α) (hscan : (s.scan buf).2 = none) :
    (s.scan (buf ++ more)).2 = none := by
  induction buf using Scanner.scan.induct s with
  | case1 buf h =>
    rw [s.scan_wait h] at hscan
    cases hscan
  | case2 buf h => rw [s.scan_refuse (s.refuse_stable more h)]
  | case3 buf emitted r h _ ih =>
    rw [s.scan_item h] at hscan
    rw [s.scan_item (s.item_stable more h)]
    exact ih hscan

/-- An input with nothing refused in it has a first piece with nothing
    refused in it. -/
theorem scan_append (buf more : List α) (hnone : (s.scan (buf ++ more)).2 ≠ none) :
    ∃ rest, (s.scan buf).2 = some rest ∧
      s.scan (buf ++ more)
        = ((s.scan buf).1 ++ (s.scan (rest ++ more)).1, (s.scan (rest ++ more)).2) := by
  cases hscan : (s.scan buf).2 with
  | none => exact absurd (s.scan_refused_append more hscan) hnone
  | some rest => exact ⟨rest, rfl, s.scan_resume more hscan⟩

/-! ### Chunks -/

/-- What will have been returned once `rest` has arrived too. -/
def predict (st : List β × List α) (rest : List α) : List β :=
  st.1 ++ (s.scan (st.2 ++ rest)).1

/-- Nothing in the buffered and coming input is refused. -/
def Clean (st : List β × List α) (rest : List α) : Prop :=
  (s.scan (st.2 ++ rest)).2 ≠ none

theorem chunk_invariant : ChunkInvariant s.feed s.predict s.Clean where
  keep := by
    intro st c rest hclean
    have hsplit : st.2 ++ (c ++ rest) = (st.2 ++ c) ++ rest := by simp
    rw [Clean, hsplit] at hclean
    obtain ⟨left, hleft, heq⟩ := s.scan_append (st.2 ++ c) rest hclean
    rw [heq] at hclean
    simpa [Clean, feed, push, hleft] using hclean
  same := by
    intro st c rest hclean
    have hsplit : st.2 ++ (c ++ rest) = (st.2 ++ c) ++ rest := by simp
    rw [Clean, hsplit] at hclean
    obtain ⟨left, hleft, heq⟩ := s.scan_append (st.2 ++ c) rest hclean
    simp only [predict, feed, push, hleft, Option.getD_some]
    rw [hsplit, heq, List.append_assoc]

/-- What a push leaves in the buffer completes nothing by itself. -/
theorem feed_quiet (st : List β × List α) (chunk : List α) :
    (s.scan (s.feed st chunk).2).1 = [] := by
  simp only [feed, push]
  cases h : (s.scan (st.2 ++ chunk)).2 with
  | none => exact s.scan_nil
  | some rest =>
    have hwait := s.scan_remainder (st.2 ++ chunk) rest h
    simp [s.scan_wait hwait]

theorem push_all_quiet (chunks : List (List α)) : (s.scan (s.push_all chunks).2).1 = [] := by
  rcases List.eq_nil_or_concat chunks with rfl | ⟨init, last, rfl⟩
  · exact s.scan_nil
  · simp only [push_all, List.concat_eq_append, List.foldl_append, List.foldl_cons,
      List.foldl_nil]
    exact s.feed_quiet _ last

/-- Where nothing is refused, every way of cutting the input returns the
    items of one scan over it, in order. -/
theorem push_all_eq_scan (chunks : List (List α))
    (hclean : (s.scan chunks.flatten).2 ≠ none) :
    (s.push_all chunks).1 = (s.scan chunks.flatten).1 := by
  have h := s.chunk_invariant.foldl_flatten_eq ([], []) chunks (by simpa [Clean] using hclean)
  rw [← push_all, predict, List.append_nil, s.push_all_quiet chunks, List.append_nil] at h
  simpa [predict] using h

/-- The buffer is then what the one scan waits on. -/
theorem push_all_clean (chunks : List (List α)) {rest : List α}
    (hscan : (s.scan chunks.flatten).2 = some rest) :
    s.push_all chunks = ((s.scan chunks.flatten).1, rest) := by
  induction chunks using List.reverseRecOn generalizing rest with
  | nil =>
    cases hnext : s.next [] with
    | wait =>
      rw [List.flatten_nil, s.scan_wait hnext] at hscan ⊢
      obtain rfl : [] = rest := Option.some.inj hscan
      rfl
    | refuse =>
      rw [List.flatten_nil, s.scan_refuse hnext] at hscan
      cases hscan
    | item emitted left => exact absurd (s.progress hnext) (by simp)
  | append_singleton init c ih =>
    rw [List.flatten_append, List.flatten_singleton] at hscan ⊢
    -- what the earlier chunks leave is scanned again with the last one behind it
    obtain ⟨left, hleft, hwhole⟩ := s.scan_append init.flatten c (by rw [hscan]; simp)
    rw [hwhole] at hscan ⊢
    have hlast : (s.scan (left ++ c)).2 = some rest := hscan
    unfold push_all at ih ⊢
    rw [List.foldl_append, ih hleft, List.foldl_cons, List.foldl_nil]
    simp only [feed, push, hlast, Option.getD_some]

/-- A refused input: what was found before, and an empty buffer. -/
theorem feed_refused {buf chunk : List α} (found : List β)
    (h : (s.scan (buf ++ chunk)).2 = none) :
    s.feed (found, buf) chunk = (found ++ (s.scan (buf ++ chunk)).1, []) := by
  simp [feed, push, h]

/-- What earlier pushes returned stays in front. -/
theorem foldl_feed_append (found : List β) (st : List β × List α) (chunks : List (List α)) :
    chunks.foldl s.feed (found ++ st.1, st.2)
      = (found ++ (chunks.foldl s.feed st).1, (chunks.foldl s.feed st).2) := by
  induction chunks generalizing st with
  | nil => rfl
  | cons c chunks ih =>
    rw [List.foldl_cons, List.foldl_cons, ← ih (s.feed st c)]
    simp only [feed, List.append_assoc]

/-- A push that meets a refusal returns what stands before it. The pushes
    behind it are those of a new scanner. -/
theorem push_all_refused {pre : List (List α)} {c : List α} (post : List (List α))
    (hclean : (s.scan pre.flatten).2 ≠ none) (hrefused : (s.scan (pre.flatten ++ c)).2 = none) :
    s.push_all (pre ++ c :: post)
      = ((s.scan (pre.flatten ++ c)).1 ++ (s.push_all post).1, (s.push_all post).2) := by
  obtain ⟨left, hleft⟩ := Option.ne_none_iff_exists'.mp hclean
  have hwhole := s.scan_resume c hleft
  -- the refusing push leaves an empty buffer
  have hfirst : s.push_all (pre ++ [c]) = ((s.scan (pre.flatten ++ c)).1, []) := by
    have hpre := s.push_all_clean pre hleft
    unfold push_all at hpre ⊢
    rw [hwhole] at hrefused
    rw [List.foldl_append, hpre, List.foldl_cons, List.foldl_nil, s.feed_refused _ hrefused, hwhole]
  have hlater := s.foldl_feed_append (s.scan (pre.flatten ++ c)).1 ([], []) post
  rw [List.append_nil] at hlater
  unfold push_all at hfirst ⊢
  rw [List.append_cons, List.foldl_append, hfirst, hlater]

end Scanner

end AgentTraceGateway
