import Skull.Sched.Steps
import Mathlib.Data.List.ProdSigma

namespace Skull

open Machines

/-!
# The queues a message passes

* `SchedNet.places`, `SchedNet.row` — all places of a core, and those that the messages from one
  scheduler to another one pass, the last one first;
* `SchedNet.Effect.moved` — what the turns have in common: a message moves to the next place of its
  row, and gets lighter;
* `SchedNet.Known` — what is known of every state;
* `SchedNet.known_step`, `SchedNet.Reach.known` — it is kept, so it is always known.
-/

namespace SchedNet

variable {s s' : SchedNet} {x y : Sched} {pri idx : Nat} {e e' : SkEvent} {p p' : Place}

/-! ### Places -/

/-- The places of a core; a priority is below 10. -/
def places (s : SchedNet) : List Place :=
  .handled :: ((s.engines.product (List.range 10)).map (fun q => .io q.1 q.2 .input) ++
    ((s.engines.product (List.range 10)).map (fun q => .io q.1 q.2 .output) ++
      (s.engines.product (List.range (s.threads + s.bioCnt + 1))).map fun q => .bridge q.1 q.2))

/-- There are ten priorities. -/
theorem pri_lt (ptoId : PtoId) : ptoId.pri < 10 := by
  cases ptoId <;> decide

/-- The schedulers are different ones. -/
theorem engines_nodup (s : SchedNet) : s.engines.Nodup :=
  List.nodup_cons.mpr ⟨not_mem_links s .master, links_nodup s .master⟩

/-- So are the places of messages. -/
theorem places_nodup (s : SchedNet) : s.places.Nodup := by
  have hio : ∀ type, ((s.engines.product (List.range 10)).map
      fun q => Place.io q.1 q.2 type).Nodup := fun type =>
    List.Nodup.map (fun _ _ heq => by simpa [Prod.ext_iff] using heq)
      ((engines_nodup s).product List.nodup_range)
  have hbridge : ((s.engines.product (List.range (s.threads + s.bioCnt + 1))).map
      fun q => Place.bridge q.1 q.2).Nodup :=
    List.Nodup.map (fun _ _ heq => by simpa [Prod.ext_iff] using heq)
      ((engines_nodup s).product List.nodup_range)
  refine List.nodup_cons.mpr ⟨by simp, List.nodup_append.mpr ⟨hio _,
    List.nodup_append.mpr ⟨hio _, hbridge, ?_⟩, ?_⟩⟩
  · intro p hp q hq
    obtain ⟨i, -, rfl⟩ := List.mem_map.mp hp
    obtain ⟨j, -, rfl⟩ := List.mem_map.mp hq
    simp
  · intro p hp q hq
    obtain ⟨i, -, rfl⟩ := List.mem_map.mp hp
    rcases List.mem_append.mp hq with hq | hq
    · obtain ⟨j, -, rfl⟩ := List.mem_map.mp hq
      simp
    · obtain ⟨j, -, rfl⟩ := List.mem_map.mp hq
      simp

/-- What was handled is a place. -/
theorem handled_mem_places (s : SchedNet) : .handled ∈ s.places := .head _

/-- So are the queues of a scheduler. -/
theorem io_mem_places (hx : x ∈ s.engines) (ptoId : PtoId) (type : IoType) :
    .io x ptoId.pri type ∈ s.places := by
  have hmem : (x, ptoId.pri) ∈ s.engines.product (List.range 10) :=
    List.mem_product.mpr ⟨hx, List.mem_range.mpr (pri_lt ptoId)⟩
  refine .tail _ (List.mem_append.mpr ?_)
  cases type with
  | input => exact .inl (List.mem_map.mpr ⟨_, hmem, rfl⟩)
  | output => exact .inr (List.mem_append.mpr (.inl (List.mem_map.mpr ⟨_, hmem, rfl⟩)))

theorem bridge_mem_places (hx : x ∈ s.engines) (hlink : (s.links x)[idx]? = some y) :
    .bridge x idx ∈ s.places := by
  have hlt : idx < s.threads + s.bioCnt + 1 := by
    have hidx : idx < (s.links x).length := (List.getElem?_eq_some_iff.mp hlink).1
    cases x with
    | master =>
      rw [links, List.length_append, List.length_map, List.length_map, List.length_range,
        List.length_range] at hidx
      omega
    | worker i => exact Nat.lt_of_lt_of_le hidx (Nat.succ_le_succ (Nat.zero_le _))
    | bio i => exact Nat.lt_of_lt_of_le hidx (Nat.succ_le_succ (Nat.zero_le _))
  refine .tail _ (List.mem_append.mpr (.inr (List.mem_append.mpr (.inr (List.mem_map.mpr
    ⟨(x, idx), List.mem_product.mpr ⟨hx, List.mem_range.mpr hlt⟩, rfl⟩)))))

/-! ### Rows -/

/-- The places that messages of a priority from `src` to `d` pass, the last one first. -/
def row (s : SchedNet) (src d : Sched) (pri : Nat) : List Place :=
  [.handled, .io d pri .input] ++
    if src = d then []
    else if src = .master ∨ d = .master then
      [.bridge src ((s.links src).idxOf d), .io src pri .output]
    else
      [.bridge .master ((s.links .master).idxOf d), .io .master pri .output, .bridge src 0,
        .io src pri .output]

/-- A message passes each place once. -/
theorem row_nodup (s : SchedNet) (src d : Sched) (pri : Nat) : (s.row src d pri).Nodup := by
  rw [row]
  split
  · simp
  · split
    · simp
    · rename_i hne
      have hsrc : src ≠ .master := fun heq => hne (.inl heq)
      simp [Ne.symm hsrc]

theorem row_self : s.row x x pri = [.handled, .io x pri .input] := by
  rw [row, if_pos rfl, List.append_nil]

/-- What is sent to or from the master has three. -/
theorem row_near (hne : x ≠ y) (hnear : x = .master ∨ y = .master) :
    s.row x y pri = [.handled, .io y pri .input, .bridge x ((s.links x).idxOf y),
      .io x pri .output] := by
  rw [row, if_neg hne, if_pos hnear]
  rfl

/-- What goes through the master has five. -/
theorem row_far (hne : x ≠ y) (hx : x ≠ .master) (hy : y ≠ .master) :
    s.row x y pri = [.handled, .io y pri .input, .bridge .master ((s.links .master).idxOf y),
      .io .master pri .output, .bridge x 0, .io x pri .output] := by
  rw [row, if_neg hne, if_neg (not_or.mpr ⟨hx, hy⟩)]
  rfl

/-- The row of a link. -/
theorem idxOf_link (hlink : (s.links x)[idx]? = some y) : (s.links x).idxOf y = idx := by
  obtain ⟨hlt, rfl⟩ := List.getElem?_eq_some_iff.mp hlink
  exact (links_nodup s x).idxOf_getElem idx hlt

/-- The only link of a scheduler that is not the master. -/
theorem links_of_ne (hx : x ≠ .master) : s.links x = [.master] := by
  cases x with
  | master => exact absurd rfl hx
  | worker i => rfl
  | bio i => rfl

theorem link_of_ne (hx : x ≠ .master) (hlink : (s.links x)[idx]? = some y) :
    y = .master ∧ idx = 0 := by
  rw [links_of_ne hx] at hlink
  obtain ⟨hlt, hy⟩ := List.getElem?_eq_some_iff.mp hlink
  obtain rfl : idx = 0 := by simpa using hlt
  exact ⟨hy.symm, rfl⟩

/-- The master has a bridge to every other scheduler. -/
theorem mem_links_master (hx : x ∈ s.engines) (hne : x ≠ .master) : x ∈ s.links .master :=
  (mem_engines.mp hx).resolve_left hne

/-! ### Turns -/

/-- How many turns a message needs at most. -/
def weight : Place → SkEvent → Nat
  | .handled, _ => 0
  | .io _ _ .input, _ => 1
  | .bridge _ _, e => if e.hop = 1 then 4 else 2
  | .io _ _ .output, e => if e.hop = 0 then 5 else 3

/-- **What the turns have in common.** -/
structure Moved (s : SchedNet) (p p' : Place) (e e' : SkEvent) (s' : SchedNet) : Prop where
  hop : s.Hop p p' e e' s'
  source : p ∈ s.places
  target : p' ∈ s.places
  fits : s.Fits p' e'
  src : e'.src = e.src
  ptoId : e'.ptoId = e.ptoId
  data : e'.data = e.data
  dst : e.dst = e'.dst ∨ e.dst = none
  lighter : weight p' e' < weight p e
  row : ∃ d, e'.dst = some d ∧ ∃ as bs, s.row e.src d e.ptoId.pri = as ++ p' :: p :: bs

/-- The turn of a delivery. -/
theorem moved_deliver {t : Sched} (hx : x ∈ s.engines) (hlink : (s.links x)[idx]? = some t)
    (hdst : ∀ d ∈ e.dst, d ∈ s.links x → t = d) (hfit : s.Fits (.io x pri .output) e)
    (hop : s.Hop (.io x pri .output) (.bridge x idx) e
      { e with dst := some (e.dst.getD t), hop := (e.hop + 1) % 256 } s') :
    s.Moved (.io x pri .output) (.bridge x idx) e
      { e with dst := some (e.dst.getD t), hop := (e.hop + 1) % 256 } s' := by
  obtain ⟨rfl, hne, hengines, hwhere⟩ := hfit
  have ht : t ∈ s.links x := List.mem_of_getElem? hlink
  -- the destination that the message has from now on
  obtain ⟨d, hd⟩ : ∃ d, e.dst.getD t = d := ⟨_, rfl⟩
  have hcases : e.dst = some d ∨ e.dst = none ∧ t = d := by
    cases hcase : e.dst with
    | none => exact .inr ⟨rfl, by rw [← hd, hcase]; rfl⟩
    | some d' => exact .inl (by rw [← hd, hcase]; rfl)
  have hold : e.dst = some d ∨ e.dst = none := hcases.imp_right And.left
  have hin : d ∈ s.engines := by
    rcases hcases with hcase | ⟨-, rfl⟩
    · exact hengines d hcase
    · exact mem_engines_of_mem_links hx ht
  rw [hd] at hop ⊢
  rcases hwhere with ⟨rfl, hhop⟩ | ⟨rfl, hsrc, hhop, d', hmem', hd'⟩
  · -- the first hop
    have hnesrc : e.src ≠ d := by
      rintro heq
      rcases hcases with hcase | ⟨-, htd⟩
      · exact hne (by rw [hcase, heq])
      · exact not_mem_links s e.src (by rw [← heq] at htd; exact htd ▸ ht)
    have htd : e.src = .master ∨ d = .master → t = d := by
      intro hnear
      rcases hcases with hcase | ⟨-, heq⟩
      · refine hdst d hcase ?_
        rcases hnear with hmaster | rfl
        · rw [hmaster]
          exact mem_links_master hin fun heq => hnesrc (hmaster.trans heq.symm)
        · rw [links_of_ne hnesrc]
          exact .head _
      · exact heq
    refine ⟨hop, io_mem_places hx e.ptoId .output, bridge_mem_places hx hlink, ⟨?_, ?_, d, hin, rfl, ?_⟩,
      rfl, rfl, rfl, hold, ?_, d, rfl, ?_⟩
    · exact fun heq => hnesrc (Option.some.inj heq).symm
    · exact .inl ⟨rfl, by rw [hhop]⟩
    · intro hmaster
      rw [← htd (.inl hmaster)]
      exact hlink
    · simp [weight, hhop]
    · by_cases hnear : e.src = .master ∨ d = .master
      · refine ⟨[.handled, .io d e.ptoId.pri .input], [], ?_⟩
        rw [row_near hnesrc hnear, idxOf_link (htd hnear ▸ hlink)]
        rfl
      · obtain ⟨hsrc, hdm⟩ := not_or.mp hnear
        refine ⟨[.handled, .io d e.ptoId.pri .input, .bridge .master ((s.links .master).idxOf d),
          .io .master e.ptoId.pri .output], [], ?_⟩
        rw [row_far hnesrc hsrc hdm, (link_of_ne hsrc hlink).2]
        rfl
  · -- the second hop
    have hdd : d' = d := by
      rcases hold with hcase | hcase
      · exact Option.some.inj (hd'.symm.trans hcase)
      · exact absurd (hd'.symm.trans hcase) (by simp)
    subst hdd
    have htd := hdst d' hd' hmem'
    have hdm : d' ≠ .master := fun heq => not_mem_links s .master (heq ▸ hmem')
    have hnesrc : e.src ≠ d' := fun heq => hne (by rw [hd', heq])
    refine ⟨hop, io_mem_places hx e.ptoId .output, bridge_mem_places hx hlink, ⟨?_, ?_, d', hin, rfl, ?_⟩,
      rfl, rfl, rfl, hold, ?_, d', rfl, ?_⟩
    · exact fun heq => hnesrc (Option.some.inj heq).symm
    · exact .inr ⟨rfl, hsrc, by rw [hhop]⟩
    · intro _
      rw [← htd]
      exact hlink
    · simp [weight, hhop]
    · refine ⟨[.handled, .io d' e.ptoId.pri .input], [.bridge e.src 0, .io e.src e.ptoId.pri .output],
        ?_⟩
      rw [row_far hnesrc hsrc hdm, idxOf_link (htd ▸ hlink)]
      rfl

/-- The turn of a copy. -/
theorem moved_copy {t : Sched} (hx : x ∈ s.engines) (hlink : (s.links x)[idx]? = some t)
    (hfit : s.Fits (.bridge x idx) e)
    (hop : s.Hop (.bridge x idx) (.io t e.ptoId.pri (if e.dst = some t then .input else .output)) e
      e s') :
    s.Moved (.bridge x idx) (.io t e.ptoId.pri (if e.dst = some t then .input else .output)) e
      e s' := by
  obtain ⟨hne, hwhere, d, hin, hd, hmaster⟩ := hfit
  -- the bridge leads to a scheduler of the core
  have ht : t ∈ s.engines := mem_engines_of_mem_links hx (List.mem_of_getElem? hlink)
  have hnesrc : e.src ≠ d := fun heq => hne (by rw [hd, heq])
  by_cases htd : e.dst = some t
  · -- the message has arrived
    obtain rfl : d = t := Option.some.inj (hd.symm.trans htd)
    rw [if_pos htd] at hop ⊢
    refine ⟨hop, bridge_mem_places hx hlink, io_mem_places ht e.ptoId .input, ⟨rfl, htd, ?_⟩, rfl,
      rfl, rfl, .inl rfl, ?_, d, hd, ?_⟩
    · rcases hwhere with ⟨-, hhop⟩ | ⟨-, -, hhop⟩
      · rw [hhop]
        decide
      · rw [hhop]
    · show 1 < if e.hop = 1 then 4 else 2
      split <;> decide
    · -- one hop when the master sends or receives, else two
      rcases hwhere with ⟨rfl, -⟩ | ⟨rfl, hsrc, -⟩
      · have hnear : e.src = .master ∨ d = .master := by
          by_cases hsrc : e.src = .master
          · exact .inl hsrc
          · exact .inr (link_of_ne hsrc hlink).1
        refine ⟨[.handled], [.io e.src e.ptoId.pri .output], ?_⟩
        rw [row_near hnesrc hnear, idxOf_link hlink]
        rfl
      · have hdm : d ≠ .master := by
          rintro rfl
          exact not_mem_links s .master (List.mem_of_getElem? hlink)
        refine ⟨[.handled], [.io .master e.ptoId.pri .output, .bridge e.src 0,
          .io e.src e.ptoId.pri .output], ?_⟩
        rw [row_far hnesrc hsrc hdm, idxOf_link hlink]
        rfl
  · -- the message is at the master, and has one more hop
    have hx : x ≠ .master := fun heq => htd (by rw [hd, ← hmaster heq, hlink])
    obtain ⟨rfl, hhop⟩ : x = e.src ∧ e.hop = 1 := by
      rcases hwhere with hfirst | ⟨heq, -, -⟩
      · exact hfirst
      · exact absurd heq hx
    obtain ⟨rfl, rfl⟩ := link_of_ne hx hlink
    have hdm : d ≠ .master := fun heq => htd (by rw [hd, heq])
    rw [if_neg htd] at hop ⊢
    refine ⟨hop, bridge_mem_places ‹_› hlink, io_mem_places ht e.ptoId .output,
      ⟨rfl, hne, fun d' hd' => ?_, .inr ⟨rfl, hx, hhop, d, mem_links_master hin hdm, hd⟩⟩, rfl,
      rfl, rfl, .inl rfl, ?_, d, hd, ?_⟩
    · rw [← Option.some.inj (hd.symm.trans hd')]
      exact hin
    · simp [weight, hhop]
    · refine ⟨[.handled, .io d e.ptoId.pri .input, .bridge .master ((s.links .master).idxOf d)],
        [.io e.src e.ptoId.pri .output], ?_⟩
      rw [row_far hnesrc hx hdm]
      rfl

/-- The turn of a message that is handled. -/
theorem moved_run (hx : x ∈ s.engines) (hfit : s.Fits (.io x pri .input) e)
    (hop : s.Hop (.io x pri .input) .handled e e s') :
    s.Moved (.io x pri .input) .handled e e s' := by
  obtain ⟨rfl, hdst, hhop⟩ := hfit
  refine ⟨hop, io_mem_places hx e.ptoId .input, handled_mem_places s, hhop, rfl, rfl, rfl, .inl rfl,
    Nat.zero_lt_one, x, hdst, [], ?_⟩
  by_cases heq : e.src = x
  · exact ⟨[], by rw [heq, row_self]; rfl⟩
  · by_cases hnear : e.src = .master ∨ x = .master
    · exact ⟨_, by rw [row_near heq hnear]; rfl⟩
    · obtain ⟨hsrc, hxm⟩ := not_or.mp hnear
      exact ⟨_, by rw [row_far heq hsrc hxm]; rfl⟩

/-- **Every turn** moves a message to the next place of its row. -/
theorem Effect.moved {a : SchedAction} (hfits : ∀ p, ∀ e ∈ s.queue p, s.Fits p e)
    (heffect : Effect s a s') (hturn : a.isTurn) : ∃ p p' e e', s.Moved p p' e e' s' := by
  have hhead : ∀ {p p' e e'}, s.Hop p p' e e' s' → s.Fits p e := by
    intro p p' e e' hop
    obtain ⟨rest, hrest⟩ := hop.head
    exact hfits p e (by rw [hrest]; exact .head _)
  cases heffect with
  | send => exact absurd hturn (by simp [SchedAction.isTurn])
  | deliver hx hlink hdst hop hhandled =>
    exact ⟨_, _, _, _, moved_deliver hx hlink hdst (hhead hop) hop⟩
  | copy hx hlink hop hhandled => exact ⟨_, _, _, _, moved_copy hx hlink (hhead hop) hop⟩
  | run hx hop hhandled => exact ⟨_, _, _, _, moved_run hx (hhead hop) hop⟩

/-! ### What is known of every state -/

/-- The number of a message, if it is from `src` to `d` and of that priority, or may get there. -/
def seen (src d : Sched) (pri : Nat) (_ : Place) (e : SkEvent) : Option Nat :=
  if e.src = src ∧ e.ptoId.pri = pri ∧ (e.dst = some d ∨ e.dst = none) then some e.data else none

/-- A message is seen in its row. -/
theorem seen_eq {src d : Sched} (hsrc : e.src = src) (hpri : e.ptoId.pri = pri)
    (hdst : e.dst = some d ∨ e.dst = none) : seen src d pri p e = some e.data :=
  if_pos ⟨hsrc, hpri, hdst⟩

/-- What is seen in a row is a message of it. -/
theorem of_seen {src d : Sched} {i : Nat} (h : seen src d pri p e = some i) :
    e.src = src ∧ e.ptoId.pri = pri ∧ (e.dst = some d ∨ e.dst = none) ∧ e.data = i := by
  rw [seen] at h
  obtain ⟨⟨hsrc, hpri, hdst⟩, hi⟩ := Option.ite_none_right_eq_some.mp h
  exact ⟨hsrc, hpri, hdst, Option.some.inj hi⟩

/-- The number of a message. -/
def number (_ : Place) (e : SkEvent) : Option Nat := some e.data

/-- What a message has in common with the one that was sent. -/
def Origin (s : SchedNet) (e : SkEvent) : Prop :=
  ∃ m, s.sent[e.data]? = some m ∧ m.src = e.src ∧ m.ptoId = e.ptoId ∧
    (m.dst = e.dst ∨ m.dst = none)

/-- **What is known of every state.** -/
structure Known (s : SchedNet) : Prop where
  star : s.Star
  fits : ∀ p, ∀ e ∈ s.queue p, s.Fits p e
  origin : ∀ p, ∀ e ∈ s.queue p, s.Origin e
  settled : ∀ q ∈ s.handled, q.2.dst = some q.1
  once : (Queues.line number s.queue s.places).Perm (List.range s.sent.length)
  inOrder : ∀ src d pri,
    (Queues.line (seen src d pri) s.queue (s.row src d pri)).Pairwise (· < ·)

theorem engines_congr (hthreads : s'.threads = s.threads) (hbioCnt : s'.bioCnt = s.bioCnt) :
    s'.engines = s.engines := by
  rw [engines, engines, hthreads, hbioCnt]

theorem links_congr (hthreads : s'.threads = s.threads) (hbioCnt : s'.bioCnt = s.bioCnt) :
    s'.links = s.links := by
  funext x
  cases x with
  | master => rw [links, links, hthreads, hbioCnt]
  | worker i => rfl
  | bio i => rfl

/-- The same schedulers. -/
theorem Same.engines (h : s.Same s') : s'.engines = s.engines := engines_congr h.threads h.bioCnt

/-- The same bridges. -/
theorem Same.links (h : s.Same s') : s'.links = s.links := links_congr h.threads h.bioCnt

/-- What fits does still. -/
theorem Same.fits (h : s.Same s') (p : Place) (e : SkEvent) : s'.Fits p e ↔ s.Fits p e := by
  cases p with
  | handled => rfl
  | io x pri type =>
    cases type with
    | input => rfl
    | output => rw [Fits, Fits, h.engines, h.links]
  | bridge x idx => rw [Fits, Fits, h.engines, h.links]

/-- The same places. -/
theorem Same.places (h : s.Same s') : s'.places = s.places := by
  rw [SchedNet.places, SchedNet.places, h.engines, h.threads, h.bioCnt]

/-- The same rows. -/
theorem Same.row (h : s.Same s') (src d : Sched) (pri : Nat) :
    s'.row src d pri = s.row src d pri := by
  rw [SchedNet.row, SchedNet.row, h.links]

/-- A message has the number of one that was sent. -/
theorem Origin.lt (h : s.Origin e) : e.data < s.sent.length := by
  obtain ⟨m, hm, -⟩ := h
  exact (List.getElem?_eq_some_iff.mp hm).1

/-- A message that is sent fits where it is pushed. -/
theorem fits_sent {src : Sched} {dst : Option Sched} {ptoId : PtoId}
    (hdst : ∀ d ∈ dst, d ∈ s.engines) (data : Nat) :
    s.Fits (.io src ptoId.pri (if dst = some src then .input else .output))
      { src, dst, ptoId, hop := 0, data } := by
  by_cases hself : dst = some src
  · rw [if_pos hself]
    exact ⟨rfl, hself, Nat.zero_le _⟩
  · rw [if_neg hself]
    exact ⟨rfl, hself, hdst, .inl ⟨rfl, rfl⟩⟩

/-- A message that is sent is pushed to the first place of its row. -/
theorem row_sent {src d : Sched} {dst : Option Sched} (hdst : dst = some d ∨ dst = none)
    (hmem : .io src pri (if dst = some src then .input else .output) ∈ s.row src d pri) :
    ∃ as, s.row src d pri = as ++ [.io src pri (if dst = some src then .input else .output)] := by
  by_cases heq : src = d
  · subst heq
    rw [row_self] at hmem ⊢
    have hinput : (if dst = some src then IoType.input else .output) = .input := by
      simpa using hmem
    exact ⟨[.handled], by rw [hinput]; rfl⟩
  · have houtput : dst ≠ some src := by
      rintro rfl
      rcases hdst with hd | hd
      · exact heq (Option.some.inj hd)
      · exact absurd hd (by simp)
    rw [if_neg houtput]
    by_cases hnear : src = .master ∨ d = .master
    · exact ⟨[.handled, .io d pri .input, .bridge src ((s.links src).idxOf d)], row_near heq hnear⟩
    · obtain ⟨hsrc, hd⟩ := not_or.mp hnear
      exact ⟨[.handled, .io d pri .input, .bridge .master ((s.links .master).idxOf d),
        .io .master pri .output, .bridge src 0], row_far heq hsrc hd⟩

/-- **A message is sent.** -/
theorem known_sent (h : s.Known) {src : Sched} {dst : Option Sched} {ptoId : PtoId}
    (hsame : s.Same s') (hsrc : src ∈ s.engines) (hdst : ∀ d ∈ dst, d ∈ s.engines)
    (hqueue : s'.queue = s.queue.push
      (.io src ptoId.pri (if dst = some src then .input else .output))
      { src, dst, ptoId, hop := 0, data := s.sent.length })
    (hsent : s'.sent = s.sent ++ [{ src, dst, ptoId, hop := 0, data := s.sent.length }])
    (hhandled : s'.handled = s.handled) : s'.Known := by
  have hold : ∀ p, ∀ e ∈ s.queue p, s'.Origin e := by
    intro p e he
    obtain ⟨m, hm, hrest⟩ := h.origin p e he
    refine ⟨m, ?_, hrest⟩
    rw [hsent, List.getElem?_append_left (List.getElem?_eq_some_iff.mp hm).1, hm]
  refine ⟨hsame.star, fun p e he => ?_, fun p e he => ?_, fun q hq => ?_, ?_,
    fun src' d pri => ?_⟩
  · rw [hsame.fits]
    rw [hqueue] at he
    rcases Queues.mem_push he with he | ⟨rfl, rfl⟩
    · exact h.fits p e he
    · exact fits_sent hdst _
  · rw [hqueue] at he
    rcases Queues.mem_push he with he | ⟨rfl, rfl⟩
    · exact hold p e he
    · refine ⟨{ src, dst, ptoId, hop := 0, data := s.sent.length }, ?_, rfl, rfl, .inl rfl⟩
      rw [hsent, List.getElem?_concat_length]
  · exact h.settled q (hhandled ▸ hq)
  · rw [hqueue, hsame.places, hsent, List.length_append, List.length_singleton, List.range_succ]
    exact (Queues.perm_push (places_nodup s) (io_mem_places hsrc ptoId _)).trans
      (h.once.append_right _)
  · rw [hqueue, hsame.row]
    cases hseen : seen src' d pri (.io src ptoId.pri (if dst = some src then .input else .output))
        { src, dst, ptoId, hop := 0, data := s.sent.length } with
    | none =>
      rw [Queues.line_push_unseen hseen]
      exact h.inOrder src' d pri
    | some i =>
      obtain ⟨rfl, rfl, hd, rfl⟩ := of_seen hseen
      simp only at hd hseen ⊢
      by_cases hmem : .io src ptoId.pri (if dst = some src then .input else .output) ∈
          s.row src d ptoId.pri
      · obtain ⟨as, has⟩ := row_sent hd hmem
        have hnodup := row_nodup s src d ptoId.pri
        have hline := h.inOrder src d ptoId.pri
        rw [has] at hnodup hline ⊢
        have hnot := fun hin => (List.nodup_append.mp hnodup).2.2 _ hin _ (.head _) rfl
        rw [Queues.line_push hnot, hseen]
        refine List.pairwise_append.mpr ⟨hline, List.pairwise_singleton .., ?_⟩
        -- the new message has the greatest number
        intro j hj n hn
        obtain ⟨p, -, e, he, hsee⟩ := Queues.mem_line.mp hj
        rw [List.mem_singleton.mp hn, ← (of_seen hsee).2.2.2]
        exact (h.origin p e he).lt
      · rw [Queues.line_push_of_not_mem hmem]
        exact h.inOrder src d ptoId.pri

/-- **A message moves.** -/
theorem known_moved (h : s.Known) (hsame : s.Same s') (hmoved : s.Moved p p' e e' s')
    (hsettled : ∀ q ∈ s'.handled, q.2.dst = some q.1) : s'.Known := by
  obtain ⟨rest, hhead⟩ := hmoved.hop.head
  have he : e ∈ s.queue p := by
    rw [hhead]
    exact .head _
  have horigin : ∀ {e}, s.Origin e → s'.Origin e := by
    intro e horigin
    rw [Origin, hmoved.hop.sent]
    exact horigin
  refine ⟨hsame.star, fun q f hf => ?_, fun q f hf => ?_, hsettled, ?_, fun src d pri => ?_⟩
  · rw [hsame.fits]
    rw [hmoved.hop.queue] at hf
    rcases Queues.mem_move hf with hf | ⟨rfl, rfl⟩
    · exact h.fits q f hf
    · exact hmoved.fits
  · rw [hmoved.hop.queue] at hf
    rcases Queues.mem_move hf with hf | ⟨rfl, rfl⟩
    · exact horigin (h.origin q f hf)
    · -- the message keeps what it was sent with, but may have lost its destination
      obtain ⟨m, hm, hsrc, hptoId, hdst⟩ := horigin (h.origin p e he)
      refine ⟨m, by rw [hmoved.data, hm], hsrc.trans hmoved.src.symm,
        hptoId.trans hmoved.ptoId.symm, ?_⟩
      rcases hmoved.dst with heq | hnone
      · rwa [← heq]
      · exact .inr (hdst.elim (fun heq => heq.trans hnone) id)
  · rw [hmoved.hop.queue, hsame.places, hmoved.hop.sent]
    refine (Queues.perm_move (places_nodup s) hmoved.source hmoved.target hhead ?_).trans h.once
    rw [number, number, hmoved.data]
  · rw [hmoved.hop.queue, hsame.row]
    -- a pair of schedulers whose line the message leaves, or one it moves along
    cases hseen : seen src d pri p' e' with
    | none => exact (h.inOrder src d pri).sublist (Queues.line_leave (.inr hseen))
    | some i =>
      obtain ⟨hsrc, hpri, hd, hdata⟩ := of_seen hseen
      obtain ⟨d', hd', as, bs, hrow⟩ := hmoved.row
      obtain rfl : d' = d := by
        rcases hd with hd | hd
        · exact Option.some.inj (hd'.symm.trans hd)
        · exact absurd (hd'.symm.trans hd) (by simp)
      rw [hmoved.src] at hsrc
      rw [hmoved.ptoId] at hpri
      rw [hsrc, hpri] at hrow
      have hview : seen src d' pri p e = seen src d' pri p' e' := by
        rw [hseen, ← hdata, hmoved.data]
        exact seen_eq hsrc hpri (hmoved.dst.imp_left fun heq => heq.trans hd')
      have hnodup := row_nodup s src d' pri
      have hline := h.inOrder src d' pri
      rw [hrow] at hnodup hline ⊢
      rw [Queues.line_move hnodup hhead hview]
      exact hline

/-! ### Every state -/

/-- What is handled is handled where it should be. -/
theorem Effect.settled {a : SchedAction} (h : s.Known) (heffect : Effect s a s') :
    ∀ q ∈ s'.handled, q.2.dst = some q.1 := by
  cases heffect with
  | send hsrc hdst hqueue hsent hhandled => exact fun q hq => h.settled q (hhandled ▸ hq)
  | deliver hx hlink hdst hop hhandled => exact fun q hq => h.settled q (hhandled ▸ hq)
  | copy hx hlink hop hhandled => exact fun q hq => h.settled q (hhandled ▸ hq)
  | run hx hop hhandled =>
    intro q hq
    rcases List.mem_append.mp (hhandled ▸ hq) with hq | hq
    · exact h.settled q hq
    · obtain rfl := List.mem_singleton.mp hq
      obtain ⟨rest, hrest⟩ := hop.head
      exact (h.fits (.io _ _ .input) _ (by rw [hrest]; exact .head _)).2.1

/-- The number of turns that all messages need at most. -/
def pending (s : SchedNet) : Nat := s.queue.load weight s.places

/-- No message needs more than five turns. -/
theorem weight_le (p : Place) (e : SkEvent) : weight p e ≤ 5 := by
  cases p with
  | handled => exact Nat.zero_le 5
  | io x pri type =>
    cases type with
    | input => exact (by decide : 1 ≤ 5)
    | output =>
      show (if e.hop = 0 then 5 else 3) ≤ 5
      split <;> decide
  | bridge x idx =>
    show (if e.hop = 1 then 4 else 2) ≤ 5
    split <;> decide

/-- What an action adds to the turns that are needed, and what it takes from them. -/
theorem Effect.pending {a : SchedAction} (h : s.Known) (hsame : s.Same s')
    (heffect : Effect s a s') : if a.isTurn then s'.pending < s.pending
      else s'.pending ≤ s.pending + 5 := by
  by_cases hturn : a.isTurn
  · rw [if_pos hturn]
    obtain ⟨p, p', e, e', hmoved⟩ := heffect.moved h.fits hturn
    obtain ⟨rest, hhead⟩ := hmoved.hop.head
    have hload := Queues.load_move (w := weight) (y := e') (places_nodup s) hmoved.source
      hmoved.target hhead
    have hlighter := hmoved.lighter
    rw [SchedNet.pending, SchedNet.pending, hsame.places, hmoved.hop.queue]
    omega
  · rw [if_neg hturn]
    cases heffect with
    | send hsrc hdst hqueue hsent hhandled =>
      rw [SchedNet.pending, SchedNet.pending, hsame.places, hqueue,
        Queues.load_push (places_nodup s) (io_mem_places hsrc _ _)]
      exact Nat.add_le_add_left (weight_le _ _) _
    | deliver => exact absurd rfl hturn
    | copy => exact absurd rfl hturn
    | run => exact absurd rfl hturn

/-- **What is known** is kept by what a step can do. -/
theorem Known.effect (h : s.Known) {a : SchedAction} (hsame : s.Same s')
    (heffect : Effect s a s') : s'.Known := by
  by_cases hturn : a.isTurn
  · obtain ⟨p, p', e, e', hmoved⟩ := heffect.moved h.fits hturn
    exact known_moved h hsame hmoved (heffect.settled h)
  · cases heffect with
    | send hsrc hdst hqueue hsent hhandled =>
      exact known_sent h hsame hsrc hdst hqueue hsent hhandled
    | deliver => exact absurd rfl hturn
    | copy => exact absurd rfl hturn
    | run => exact absurd rfl hturn

/-- **Every step** runs without a fault, keeps what is known, and brings the messages on. -/
theorem Known.step (h : s.Known) {a : SchedAction} (hroomy : s.Roomy a) (henabled : s.enabled a) :
    ∃ s', s.exec a = .ok s' ∧ s'.Known ∧
      if a.isTurn then s'.pending < s.pending else s'.pending ≤ s.pending + 5 := by
  obtain ⟨s', hexec, hsame, heffect⟩ := exec_effect h.star h.fits hroomy henabled
  exact ⟨s', hexec, h.effect hsame heffect, heffect.pending h hsame⟩

/-- Nothing is in line where the queues are empty. -/
theorem line_of_empty {view : Place → SkEvent → Option Nat} (hempty : ∀ p, s.queue p = [])
    (ks : List Place) : Queues.line view s.queue ks = [] := by
  rw [Queues.line, List.flatMap_eq_nil_iff]
  intro p _
  rw [hempty, List.filterMap_nil]

/-- The state a core starts in. -/
theorem known_init (hinit : machine.init s) : s.Known := by
  obtain ⟨threads, bioCnt, hthreads, hok⟩ := hinit
  obtain ⟨hstar, -, -, hsent, hhandled, hempty⟩ := setupEngines_star hthreads hok
  refine ⟨hstar, fun p e he => ?_, fun p e he => ?_, fun q hq => ?_, ?_, fun src d pri => ?_⟩
  · exact absurd he (by simp [hempty])
  · exact absurd he (by simp [hempty])
  · exact absurd hq (by simp [hhandled])
  · rw [line_of_empty hempty, hsent]
    exact .refl _
  · rw [line_of_empty hempty]
    exact .nil

theorem pending_init (hinit : machine.init s) : s.pending = 0 := by
  obtain ⟨threads, bioCnt, hthreads, hok⟩ := hinit
  obtain ⟨-, -, -, -, -, hempty⟩ := setupEngines_star hthreads hok
  rw [pending, Queues.load, line_of_empty hempty, List.sum_nil]

/-- **It is always known.** -/
theorem Reach.known (hreach : machine.Reach Roomy s) : s.Known := by
  refine hreach.invariant (fun s hinit => known_init hinit) fun s a t h henabled hroomy hexec => ?_
  obtain ⟨s', hexec', hknown, -⟩ := h.step hroomy henabled
  obtain rfl : t = s' := Except.ok.inj (hexec.symm.trans hexec')
  exact hknown

/-- A run takes no more than 5 turns for each message. -/
theorem turns_le {p : List (SchedAction × SchedNet)} (h : s.Known) (hpath : machine.Path s p)
    (hroomy : Machine.StepsMeet Roomy s p) :
    (p.filter fun q => q.1.isTurn).length ≤
      s.pending + 5 * (p.filter fun q => !q.1.isTurn).length := by
  induction p generalizing s with
  | nil => exact Nat.zero_le _
  | cons q p ih =>
    obtain ⟨a, t⟩ := q
    obtain ⟨henabled, hexec, hpath⟩ := hpath
    obtain ⟨hroom, hroomy⟩ := hroomy
    obtain ⟨s', hexec', hknown, hpending⟩ := h.step hroom henabled
    obtain rfl : t = s' := Except.ok.inj (hexec.symm.trans hexec')
    have hrest := ih hknown hpath hroomy
    cases hturn : a.isTurn with
    | true =>
      rw [hturn, if_pos rfl] at hpending
      simp only [List.filter_cons, hturn, if_true, Bool.not_true, Bool.false_eq_true, if_false,
        List.length_cons]
      omega
    | false =>
      rw [hturn, if_neg (by simp)] at hpending
      simp only [List.filter_cons, hturn, if_true, Bool.not_false, Bool.false_eq_true, if_false,
        List.length_cons]
      omega

end SchedNet

end Skull
