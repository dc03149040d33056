import Mathlib.Data.List.Basic
import Mathlib.Data.List.Induction
import Mathlib.Order.Basic

namespace Machines

/-!
# Requests in a stream

A stream of symbols is cut into requests by an unpack function `u`: on the symbols buffered so
far it returns zero while they hold no complete request, the length of the request at their head
when they do, and something negative for a request it rejects.  Somebody who takes the requests
from the stream as it comes in, at most one for each piece, does not always take the requests of
the stream.

* `Unpacks` — what it is to be an unpack function for a format;
* `parse` — the requests that `u` takes from the head of a stream, one after the other;
* `collect` — the requests that are taken when `u` is called once for each piece of the stream,
  and what is left of it;
* `Spaced` — each request of the stream has a piece of its own, at which `u` takes it, and `u`
  takes nothing at any other piece;
* `collect_iff` — one call for each piece is enough exactly when the requests are spaced;
* `spaced_iff_complete` — what that is when `u` does not look behind a request: no number of last
  pieces completes more requests than they are;
* `spaced_iff_single` — and what it is when `u` takes all it is given.
-/

variable {α : Type}

/-- `u` unpacks the format whose complete requests are `isRequest`: it returns zero exactly when
    no request is at the head of the symbols. -/
def Unpacks (isRequest : List α → Prop) (u : List α → Int) : Prop :=
  ∀ b, u b = 0 ↔ ∀ n, ¬ isRequest (b.take n)

/-- What `u` says of a request does not depend on what follows, and it takes no more than it is
    given. -/
structure Framed (u : List α → Int) : Prop where
  bound : ∀ b, u b ≤ b.length
  stable : ∀ b c, u b ≠ 0 → u (b ++ c) = u b

/-- `u` takes something from the head of `b`. -/
def Takes (u : List α → Int) (b : List α) : Prop := b ≠ [] ∧ 0 < u b

instance (u : List α → Int) (b : List α) : Decidable (Takes u b) :=
  inferInstanceAs (Decidable (_ ∧ _))

/-! ### Parsing a whole stream -/

/-- The loop of `parse`, with a bound on its turns. -/
def parseLoop (u : List α → Int) : Nat → List α → List (List α)
  | 0, _ => []
  | turns + 1, b =>
    if Takes u b then b.take (u b).toNat :: parseLoop u turns (b.drop (u b).toNat) else []

/-- The requests at the head of a stream. -/
def parse (u : List α → Int) (b : List α) : List (List α) := parseLoop u b.length b

variable {u : List α → Int}

/-- Enough turns make no difference. -/
theorem parseLoop_eq (turns : Nat) : ∀ (turns' : Nat) (b : List α), b.length ≤ turns →
    b.length ≤ turns' → parseLoop u turns b = parseLoop u turns' b := by
  induction turns with
  | zero =>
    intro turns' b hle hle'
    have hno : ¬ Takes u b := fun h => h.1 (List.length_eq_zero_iff.mp (by omega))
    cases turns' with
    | zero => rfl
    | succ turns' => rw [parseLoop, parseLoop, if_neg hno]
  | succ turns ih =>
    intro turns' b hle hle'
    by_cases htakes : Takes u b
    · have hb : 0 < b.length := List.length_pos_of_ne_nil htakes.1
      have hpos := htakes.2
      cases turns' with
      | zero => omega
      | succ turns' =>
        rw [parseLoop, parseLoop, if_pos htakes, if_pos htakes]
        have hshort : (b.drop (u b).toNat).length + 1 ≤ b.length := by
          rw [List.length_drop]
          omega
        rw [ih turns' _ (by omega) (by omega)]
    · cases turns' with
      | zero => rw [parseLoop, parseLoop, if_neg htakes]
      | succ turns' => rw [parseLoop, parseLoop, if_neg htakes, if_neg htakes]

/-- **One request at a time.** -/
theorem parse_eq (b : List α) : parse u b =
    if Takes u b then b.take (u b).toNat :: parse u (b.drop (u b).toNat) else [] := by
  by_cases htakes : Takes u b
  · have hpos := htakes.2
    obtain ⟨n, hlen⟩ := Nat.exists_eq_succ_of_ne_zero
      (Nat.ne_of_gt (List.length_pos_of_ne_nil htakes.1))
    rw [if_pos htakes, parse, hlen, parseLoop, if_pos htakes, parse]
    congr 1
    have hshort : (b.drop (u b).toNat).length ≤ n := by
      rw [List.length_drop]
      omega
    exact parseLoop_eq _ _ _ hshort (Nat.le_refl _)
  · rw [if_neg htakes, parse]
    cases b.length with
    | zero => rfl
    | succ n => rw [parseLoop, if_neg htakes]

/-- Nothing is at the head of the stream. -/
theorem parse_nil {b : List α} (hb : ¬ Takes u b) : parse u b = [] := by
  rw [parse_eq, if_neg hb]

/-! ### One call for each piece -/

/-- A piece comes in behind the symbols that are left, and `u` is called once. -/
def receive (u : List α → Int) (s : List (List α) × List α) (piece : List α) :
    List (List α) × List α :=
  let b := s.2 ++ piece
  if Takes u b then (s.1 ++ [b.take (u b).toNat], b.drop (u b).toNat) else (s.1, b)

/-- The requests that were taken from the pieces, and what is left of them. -/
def collect (u : List α → Int) (pieces : List (List α)) : List (List α) × List α :=
  pieces.foldl (receive u) ([], [])

/-- One more piece. -/
theorem collect_append (pieces : List (List α)) (piece : List α) :
    collect u (pieces ++ [piece]) = receive u (collect u pieces) piece := by
  rw [collect, List.foldl_append]
  rfl

/-- The next request is taken when its piece comes in. -/
theorem receive_pos {s : List (List α) × List α} {piece : List α} (h : Takes u (s.2 ++ piece)) :
    receive u s piece = (s.1 ++ [(s.2 ++ piece).take (u (s.2 ++ piece)).toNat],
      (s.2 ++ piece).drop (u (s.2 ++ piece)).toNat) := by
  rw [receive, if_pos h]

/-- Otherwise the piece is kept. -/
theorem receive_neg {s : List (List α) × List α} {piece : List α} (h : ¬ Takes u (s.2 ++ piece)) :
    receive u s piece = (s.1, s.2 ++ piece) := by
  rw [receive, if_neg h]

/-- The first piece after the first `i`. -/
theorem collect_take {pieces : List (List α)} {i : Nat} (hi : i < pieces.length) :
    collect u (pieces.take (i + 1)) = receive u (collect u (pieces.take i)) pieces[i] := by
  rw [List.take_succ_eq_append_getElem hi, collect_append]

/-- Nothing is lost: what was taken and what is left are the stream. -/
theorem collect_stream (pieces : List (List α)) :
    (collect u pieces).1.flatten ++ (collect u pieces).2 = pieces.flatten := by
  induction pieces using List.reverseRecOn with
  | nil => rfl
  | append_singleton pieces piece ih =>
    have hmore : (collect u pieces).1.flatten ++ ((collect u pieces).2 ++ piece) =
        (pieces ++ [piece]).flatten := by
      rw [← List.append_assoc, ih, List.flatten_append, List.flatten_singleton]
    rw [collect_append]
    by_cases htakes : Takes u ((collect u pieces).2 ++ piece)
    · rw [receive_pos htakes, ← hmore, List.flatten_append, List.flatten_singleton,
        List.append_assoc, List.take_append_drop]
    · rw [receive_neg htakes]
      exact hmore

/-- What was taken from the first pieces stays taken. -/
theorem collect_prefix (pieces more : List (List α)) :
    (collect u pieces).1 <+: (collect u (pieces ++ more)).1 := by
  induction more using List.reverseRecOn with
  | nil => simp
  | append_singleton more piece ih =>
    refine ih.trans ?_
    rw [← List.append_assoc, collect_append]
    by_cases htakes : Takes u ((collect u (pieces ++ more)).2 ++ piece)
    · rw [receive_pos htakes]
      exact List.prefix_append _ _
    · simp [receive_neg htakes]

/-! ### Requests that come in one for each piece -/

/-- The symbols of the first `i` pieces behind the first `n` requests of the stream. -/
def pending (u : List α → Int) (pieces : List (List α)) (i n : Nat) : List α :=
  (pieces.take i).flatten.drop ((parse u pieces.flatten).take n).flatten.length

/-- The requests of the stream are `seen i` after the first `i` pieces: at each piece `u` takes the
    next of them from the symbols that come in up to there, or it takes nothing. -/
structure Seen (u : List α → Int) (pieces : List (List α)) (seen : Nat → Nat) : Prop where
  start : seen 0 = 0
  piece : ∀ i < pieces.length,
    let b := pending u pieces (i + 1) (seen i)
    seen (i + 1) = seen i ∧ ¬ Takes u b ∨
      seen (i + 1) = seen i + 1 ∧ Takes u b ∧
        (parse u pieces.flatten)[seen i]? = some (b.take (u b).toNat)
  all : seen pieces.length = (parse u pieces.flatten).length

/-- Each request of the stream has a piece of its own, at which `u` takes it, and `u` takes nothing
    at any other piece. -/
def Spaced (u : List α → Int) (pieces : List (List α)) : Prop := ∃ seen, Seen u pieces seen

/-- Where the first requests were taken, the symbols behind them are what is left. -/
theorem pending_eq {pieces : List (List α)} {i n : Nat} (hi : i < pieces.length)
    (htaken : (collect u (pieces.take i)).1 = (parse u pieces.flatten).take n) :
    pending u pieces (i + 1) n = (collect u (pieces.take i)).2 ++ pieces[i] := by
  rw [pending, ← htaken, List.take_succ_eq_append_getElem hi, List.flatten_append,
    List.flatten_singleton, ← collect_stream (u := u) (pieces.take i), List.append_assoc,
    List.drop_left]

/-- **One call for each piece is enough** exactly when the requests come in one for each piece. -/
theorem collect_iff (pieces : List (List α)) :
    (collect u pieces).1 = parse u pieces.flatten ↔ Spaced u pieces := by
  constructor
  · -- the requests that are seen are those that were taken
    intro hall
    have htaken (i : Nat) : (collect u (pieces.take i)).1 =
        (parse u pieces.flatten).take (collect u (pieces.take i)).1.length := by
      have hprefix := collect_prefix (u := u) (pieces.take i) (pieces.drop i)
      rw [List.take_append_drop, hall] at hprefix
      exact List.prefix_iff_eq_take.mp hprefix
    refine ⟨fun i => (collect u (pieces.take i)).1.length, rfl, fun i hi => ?_, ?_⟩
    · have hnext := collect_take (u := u) hi
      simp only [pending_eq hi (htaken i)]
      by_cases htakes : Takes u ((collect u (pieces.take i)).2 ++ pieces[i])
      · right
        have htaken' := htaken (i + 1)
        rw [hnext, receive_pos htakes] at htaken' ⊢
        refine ⟨by simp, htakes, ?_⟩
        have hget := congrArg (·[(collect u (pieces.take i)).1.length]?) htaken'
        simpa using hget.symm
      · left
        rw [hnext, receive_neg htakes]
        exact ⟨rfl, htakes⟩
    · simp only [List.take_length, hall]
  · rintro ⟨seen, hstart, hpiece, hlast⟩
    -- after each piece, what was taken are the requests seen
    have htaken : ∀ i ≤ pieces.length,
        (collect u (pieces.take i)).1 = (parse u pieces.flatten).take (seen i) := by
      intro i
      induction i with
      | zero =>
        intro _
        rw [hstart, List.take_zero, List.take_zero]
        rfl
      | succ i ih =>
        intro hi
        have hold := ih (by omega)
        have hcase := hpiece i (by omega)
        simp only [pending_eq (show i < pieces.length by omega) hold] at hcase
        rw [collect_take (by omega)]
        rcases hcase with ⟨hseen, hno⟩ | ⟨hseen, htakes, hget⟩
        · rw [receive_neg hno, hseen]
          exact hold
        · rw [receive_pos htakes, hseen, List.take_add_one, hget]
          simp only [hold, Option.toList_some]
    have hend := htaken pieces.length (Nat.le_refl _)
    rwa [List.take_length, hlast, List.take_length] at hend

/-! ### Requests that do not depend on what follows -/

/-- The requests `l` were taken off the stream `w` one after the other, and `b` is left. -/
structure Parsed (u : List α → Int) (w : List α) (l : List (List α)) (b : List α) : Prop where
  stream : w = l.flatten ++ b
  parse : parse u w = l ++ parse u b

namespace Parsed

variable {w b : List α} {l : List (List α)}

/-- Nothing was taken. -/
theorem nil (u : List α → Int) (w : List α) : Parsed u w [] w := ⟨rfl, rfl⟩

/-- The first request does not depend on what follows. -/
theorem tail (h : Framed u) {r : List α} (hp : Parsed u w (r :: l) b) :
    Takes u w ∧ (u w).toNat = r.length ∧ Parsed u (w.drop r.length) l b := by
  have hparse := hp.parse
  rw [parse_eq] at hparse
  split at hparse
  · rename_i htakes
    have hb := h.bound w
    rw [List.cons_append, List.cons.injEq] at hparse
    have hlen : (u w).toNat = r.length := by
      rw [← hparse.1, List.length_take]
      omega
    refine ⟨htakes, hlen, ?_, ?_⟩
    · rw [hp.stream, List.flatten_cons, List.append_assoc, List.drop_left]
    · rw [← hlen]
      exact hparse.2
  · exact absurd hparse (by simp)

/-- **More symbols** change nothing. -/
theorem append (h : Framed u) (hp : Parsed u w l b) (c : List α) :
    Parsed u (w ++ c) l (b ++ c) := by
  induction l generalizing w with
  | nil =>
    obtain rfl : w = b := by simpa using hp.stream
    exact nil u (w ++ c)
  | cons r l ih =>
    obtain ⟨htakes, hlen, htail⟩ := hp.tail h
    have hrec := ih htail
    have hle : r.length ≤ w.length := by
      rw [hp.stream, List.flatten_cons, List.append_assoc, List.length_append]
      exact Nat.le_add_right _ _
    have hstable : u (w ++ c) = u w := h.stable w c (Int.ne_of_gt htakes.2)
    have htakes' : Takes u (w ++ c) :=
      ⟨List.append_ne_nil_of_left_ne_nil htakes.1 c, hstable ▸ htakes.2⟩
    refine ⟨by rw [hp.stream, List.append_assoc], ?_⟩
    rw [parse_eq, if_pos htakes', hstable, hlen, List.cons_append,
      List.drop_append_of_le_length hle, hrec.parse, List.take_append_of_le_length hle, hp.stream,
      List.flatten_cons, List.append_assoc, List.take_left]

/-- **One more request.** -/
theorem next (hp : Parsed u w l b) (hb : Takes u b) :
    Parsed u w (l ++ [b.take (u b).toNat]) (b.drop (u b).toNat) := by
  refine ⟨?_, ?_⟩
  · rw [List.flatten_append, List.flatten_singleton, List.append_assoc, List.take_append_drop]
    exact hp.stream
  · rw [hp.parse, parse_eq b, if_pos hb, List.append_assoc]
    rfl

/-- All requests were taken exactly when as many were. -/
theorem eq_iff (hp : Parsed u w l b) :
    l = Machines.parse u w ↔ l.length = (Machines.parse u w).length := by
  constructor
  · exact fun heq => congrArg List.length heq
  · intro hlen
    have hprefix : l <+: Machines.parse u w := ⟨_, hp.parse.symm⟩
    exact hprefix.eq_of_length hlen

/-- No more requests are taken than the stream has. -/
theorem length_le (hp : Parsed u w l b) : l.length ≤ (Machines.parse u w).length := by
  rw [hp.parse, List.length_append]
  exact Nat.le_add_right _ _

end Parsed

/-- How many requests are complete in the first `i` pieces of a stream. -/
def complete (u : List α → Int) (pieces : List (List α)) (i : Nat) : Nat :=
  (parse u (pieces.take i).flatten).length

/-- So many requests have been taken when at most one is taken for each piece, as soon as one is
    complete. -/
structure Paced (u : List α → Int) (pieces : List (List α)) (taken : Nat) : Prop where
  le : ∀ i ≤ pieces.length, taken ≤ complete u pieces i + (pieces.length - i)
  ge : ∃ i ≤ pieces.length, taken = complete u pieces i + (pieces.length - i)

namespace Paced

variable {pieces : List (List α)} {taken : Nat}

/-- Nothing came in yet. -/
theorem nil : Paced u [] 0 := ⟨fun _ _ => Nat.zero_le _, 0, Nat.le_refl _, rfl⟩

/-- A further piece completes no request in those before it. -/
theorem complete_append {piece : List α} {i : Nat} (hi : i ≤ pieces.length) :
    complete u (pieces ++ [piece]) i = complete u pieces i := by
  rw [complete, List.take_append_of_le_length hi, complete]

/-- A piece comes in: a request is taken, or none is complete. -/
theorem step (h : Paced u pieces taken) {piece : List α} {taken' : Nat}
    (hle : taken' ≤ (parse u (pieces ++ [piece]).flatten).length)
    (hcase : taken' = taken + 1 ∨
      taken' = taken ∧ taken' = (parse u (pieces ++ [piece]).flatten).length) :
    Paced u (pieces ++ [piece]) taken' := by
  have hall : complete u (pieces ++ [piece]) (pieces.length + 1) =
      (parse u (pieces ++ [piece]).flatten).length := by
    have hlen : pieces.length + 1 = (pieces ++ [piece]).length := by simp
    rw [complete, hlen, List.take_length]
  refine ⟨fun i hi => ?_, ?_⟩
  · rw [List.length_append, List.length_singleton] at hi ⊢
    by_cases hlast : i = pieces.length + 1
    · subst hlast
      omega
    · have hold := h.le i (by omega)
      rw [complete_append (by omega)]
      omega
  · rw [List.length_append, List.length_singleton]
    rcases hcase with hnext | ⟨-, hfull⟩
    · obtain ⟨i, hi, heq⟩ := h.ge
      refine ⟨i, by omega, ?_⟩
      rw [complete_append hi]
      omega
    · exact ⟨pieces.length + 1, Nat.le_refl _, by omega⟩

/-- **All requests have been taken** exactly when no number of last pieces completes more requests
    than they are. -/
theorem all_iff (h : Paced u pieces taken)
    (hle : taken ≤ (parse u pieces.flatten).length) :
    taken = (parse u pieces.flatten).length ↔ ∀ i ≤ pieces.length,
      (parse u pieces.flatten).length ≤ complete u pieces i + (pieces.length - i) := by
  constructor
  · intro heq i hi
    rw [← heq]
    exact h.le i hi
  · intro hall
    obtain ⟨i, hi, heq⟩ := h.ge
    have hbound := hall i hi
    omega

end Paced

/-- What is collected was taken off the stream in order, and as soon as possible. -/
theorem collect_paced (h : Framed u) (pieces : List (List α)) :
    Parsed u pieces.flatten (collect u pieces).1 (collect u pieces).2 ∧
      Paced u pieces (collect u pieces).1.length := by
  induction pieces using List.reverseRecOn with
  | nil => exact ⟨.nil u [], .nil⟩
  | append_singleton pieces piece ih =>
    obtain ⟨hparsed, hpaced⟩ := ih
    have hmore := hparsed.append h piece
    rw [show pieces.flatten ++ piece = (pieces ++ [piece]).flatten by simp] at hmore
    rw [collect_append]
    by_cases htakes : Takes u ((collect u pieces).2 ++ piece)
    · -- a request is complete
      have hnext := hmore.next htakes
      rw [receive_pos htakes]
      exact ⟨hnext, hpaced.step hnext.length_le (.inl (by simp))⟩
    · -- no request is complete, and the piece stays
      rw [receive_neg htakes]
      refine ⟨hmore, hpaced.step hmore.length_le (.inr ⟨rfl, ?_⟩)⟩
      rw [hmore.parse, parse_nil htakes, List.append_nil]

/-- **When `u` does not look behind a request**, the requests come in one for each piece exactly
    when no number of last pieces completes more requests than they are. -/
theorem spaced_iff_complete (h : Framed u) (pieces : List (List α)) :
    Spaced u pieces ↔ ∀ i ≤ pieces.length,
      (parse u pieces.flatten).length ≤ complete u pieces i + (pieces.length - i) := by
  obtain ⟨hparsed, hpaced⟩ := collect_paced h pieces
  rw [← collect_iff, hparsed.eq_iff]
  exact hpaced.all_iff hparsed.length_le

/-! ### Requests that end where the symbols end -/

/-- When `u` takes all it is given, each piece with something in it is taken as a request. -/
theorem collect_whole (h : ∀ b, u b = b.length) (pieces : List (List α)) :
    collect u pieces = (pieces.filter fun piece => !piece.isEmpty, []) := by
  induction pieces using List.reverseRecOn with
  | nil => rfl
  | append_singleton pieces piece ih =>
    rw [collect_append, ih, List.filter_append]
    cases piece with
    | nil =>
      rw [receive_neg fun htakes => htakes.1 rfl]
      simp
    | cons a piece =>
      have htakes : Takes u ([] ++ a :: piece) := by
        refine ⟨by simp, ?_⟩
        rw [h, List.nil_append, List.length_cons]
        omega
      rw [receive_pos htakes, h]
      simp

/-- **When `u` takes all it is given**, the requests come in one for each piece exactly when at
    most one piece has something in it. -/
theorem spaced_iff_single (h : ∀ b, u b = b.length) (pieces : List (List α)) :
    Spaced u pieces ↔ (pieces.filter fun piece => !piece.isEmpty).length ≤ 1 := by
  have hflatten : pieces.flatten = (pieces.filter fun piece => !piece.isEmpty).flatten := by
    rw [List.flatten_filter_not_isEmpty]
  have hfull : ∀ piece ∈ pieces.filter fun piece => !piece.isEmpty, piece ≠ [] := by
    intro piece hmem
    simpa using (List.mem_filter.mp hmem).2
  rw [← collect_iff, collect_whole h, hflatten]
  generalize pieces.filter (fun piece => !piece.isEmpty) = full at hfull
  show full = parse u full.flatten ↔ full.length ≤ 1
  have hone (b : List α) (hb : b ≠ []) : parse u b = [b] := by
    have htakes : Takes u b := ⟨hb, by rw [h]; exact_mod_cast List.length_pos_of_ne_nil hb⟩
    rw [parse_eq, if_pos htakes, h, Int.toNat_natCast, List.take_length, List.drop_length,
      parse_nil fun hno => hno.1 rfl]
  match full, hfull with
  | [], _ => exact iff_of_true rfl (Nat.zero_le 1)
  | r :: rest, hfull =>
    have hr : r ≠ [] := hfull r List.mem_cons_self
    rw [hone _ (by simp [hr])]
    cases rest with
    | nil => simp
    | cons r' rest => simp

end Machines
