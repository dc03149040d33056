import Mathlib.Algebra.Order.Ring.Int
import Skull.Common.Mbuf

namespace Skull

/-!
# The response of the admin module (`sk_admin`)

The commands of the admin module write their response line by line.  A line is formatted into a
local buffer, and as many bytes as the line has are pushed from there into the response:

* `printed`, `memoryFrom` — what `snprintf` returns, and what is behind the pointer to its buffer;
* `AdminData.appendResponse`, `AdminData.monCb` — the two functions that push lines;
* `Complete` — the response has all lines, and no push reads behind the local buffer;
* `AdminData.Outcome` — what one call does: it pushes the line, or the end of the text with it, or
  reads behind the buffer, or loses the line;
* `complete_iff` — the response is complete exactly when each line is short enough and, unless it is
  a metric, finds room.
-/

/-! ### Lines -/

/-- A formatted text: C texts have no zero byte. -/
structure CText where
  bytes : List UInt8
  noZero : 0 ∉ bytes

/-- `ADMIN_LINE_MAX_LENGTH`. -/
def adminLineMaxLength : Nat := 1024

/-- `ADMIN_RESP_MAX_LENGTH`. -/
def adminRespMaxLength : Nat := 8192

/-- `ADMIN_COUNTER_LINE_LENGTH`. -/
def adminCounterLineLength : Nat := 256

/-- `INT_MAX`. -/
def intMax : Nat := 2 ^ 31 - 1

/-- What `snprintf` returns for a text: its length, or -1 when that is no `int`. -/
def printed (text : List UInt8) : Int := if text.length ≤ intMax then text.length else -1

/-- An `int` as a `size_t`. -/
def toSizeT (n : Int) : Nat := (n % 2 ^ 64).toNat

/-- The bytes from the pointer to a local buffer on, into which `snprintf` with a `limit` put a text:
    the text, cut so that its end fits, the zero at its end, and what there is. -/
def memoryFrom (limit : Nat) (text : List UInt8) (behind : Nat → UInt8) (i : Nat) : UInt8 :=
  (text.take (limit - 1) ++ [0]).getD i (behind i)

/-- The first `size` bytes of a memory. -/
def readBytes (memory : Nat → UInt8) (size : Nat) : List UInt8 := (List.range size).map memory

/-- A call, with its line: `_append_response` with a formatted text, or `_mon_cb` with the name and
    the formatted value of a metric. -/
inductive AdminCall
  | append (text : CText)
  | mon (name value : CText)

/-- `CFMT`. -/
def metricLine (name value : List UInt8) : List UInt8 :=
  name ++ List.replicate (55 - name.length) 32 ++ [32] ++ value ++ [10]

namespace AdminCall

/-- The line of a call. -/
def line : AdminCall → List UInt8
  | .append text => text.bytes
  | .mon name value => metricLine name.bytes value.bytes

/-- The size of its local buffer. -/
def limit : AdminCall → Nat
  | .append _ => adminLineMaxLength
  | .mon .. => adminCounterLineLength

/-- The line, cut at the limit. -/
def cutLine (call : AdminCall) : List UInt8 := call.line.take (call.limit - 1)

end AdminCall

/-! ### The functions -/

/-- `sk_admin_data_t`; `pushes` are the calls of `fmbuf_push`: the number of bytes, and the size of
    the local buffer that they are in. -/
structure AdminData where
  response : ByteBuf
  pushes : List (Nat × Nat)
  deriving DecidableEq

namespace AdminData

variable (cut : List UInt8 → Nat → List UInt8)

/-- `_sk_admin_data_create`. -/
def create : AdminData := { response := ⟨adminRespMaxLength, []⟩, pushes := [] }

/-- `fmbuf_push` of bytes from a memory into the response: whether it fails. -/
def push (d : AdminData) (memory : Nat → UInt8) (size limit : Nat) : Bool × AdminData :=
  let (failed, response) := d.response.push (readBytes memory size)
  (failed, { response, pushes := d.pushes ++ [(size, limit)] })

/-- `_append_response`. -/
def appendResponse (d : AdminData) (text : List UInt8) (behind : Nat → UInt8) : AdminData :=
  (d.push (memoryFrom adminLineMaxLength text behind) (toSizeT (printed text))
    adminLineMaxLength).2

/-- `_mon_cb`. -/
def monCb (d : AdminData) (text : List UInt8) (behind : Nat → UInt8) : AdminData :=
  if printed text < 0 then d
  else
    let memory := memoryFrom adminCounterLineLength text behind
    let size := toSizeT (printed text)
    match d.push memory size adminCounterLineLength with
    | (false, d) => d
    | (true, d) =>
      let d := { d with response := d.response.realloc cut (d.response.size + 1024) }
      (d.push memory size adminCounterLineLength).2

/-- One call, with what is behind its local buffer. -/
def exec (d : AdminData) : AdminCall × (Nat → UInt8) → AdminData
  | (.append text, behind) => d.appendResponse text.bytes behind
  | (.mon name value, behind) => d.monCb cut (metricLine name.bytes value.bytes) behind

/-- The calls of a command, from the creation of its data on. -/
def run (calls : List (AdminCall × (Nat → UInt8))) : AdminData := calls.foldl (exec cut) create

end AdminData

/-! ### What is promised -/

/-- **What is promised**: no push reads behind its buffer, and the response has all lines. -/
structure Complete (calls : List AdminCall) (d : AdminData) : Prop where
  inBounds : ∀ p ∈ d.pushes, p.1 ≤ p.2
  content : d.response.bytes = calls.flatMap AdminCall.cutLine

namespace AdminCall

/-- The line fits its buffer, and the room in a response of `size` bytes with `used` of them used;
    a response grows for a metric. -/
def Fits (used size : Nat) : AdminCall → Prop
  | .append text => text.bytes.length < adminLineMaxLength ∧ used + text.bytes.length ≤ size
  | .mon name value => (metricLine name.bytes value.bytes).length < adminCounterLineLength

/-- The size of the response after a line that fits. -/
def sizeAfter (used size : Nat) (call : AdminCall) : Nat :=
  if used + call.line.length ≤ size then size else size + 1024

/-- All lines fit, one after the other. -/
def AllFit : (used size : Nat) → List AdminCall → Prop
  | _, _, [] => True
  | used, size, call :: calls =>
    call.Fits used size ∧ AllFit (used + call.line.length) (call.sizeAfter used size) calls

instance (used size : Nat) (call : AdminCall) : Decidable (call.Fits used size) :=
  match call with
  | .append _ => inferInstanceAs (Decidable (_ ∧ _))
  | .mon .. => inferInstanceAs (Decidable (_ < _))

instance decidableAllFit : (used size : Nat) → (calls : List AdminCall) →
    Decidable (AllFit used size calls)
  | _, _, [] => .isTrue trivial
  | used, size, call :: calls =>
    have := decidableAllFit (used + call.line.length) (call.sizeAfter used size) calls
    inferInstanceAs (Decidable (_ ∧ _))

end AdminCall

/-! ### Texts -/

section Texts

variable {text : List UInt8} {limit size : Nat} {behind : Nat → UInt8}

@[simp] theorem length_readBytes (memory : Nat → UInt8) (size : Nat) :
    (readBytes memory size).length = size := by simp [readBytes]

/-- A text that fits its buffer is what is read. -/
theorem readBytes_short (h : text.length < limit) :
    readBytes (memoryFrom limit text behind) text.length = text := by
  have htake : text.take (limit - 1) = text := List.take_of_length_le (by omega)
  apply List.ext_getElem (length_readBytes _ _)
  intro i hi hi'
  rw [length_readBytes] at hi
  simp only [readBytes, List.getElem_map, List.getElem_range, memoryFrom, htake]
  rw [List.getD_eq_getElem?_getD, List.getElem?_append_left hi, List.getElem?_eq_getElem hi,
    Option.getD_some]

/-- A text with one byte more is read with the zero at its end. -/
theorem zero_mem_readBytes (hlimit : 0 < limit) (h : text.length = limit) :
    0 ∈ readBytes (memoryFrom limit text behind) text.length := by
  refine List.mem_map.mpr ⟨limit - 1, List.mem_range.mpr (by omega), ?_⟩
  have hlen : (text.take (limit - 1)).length = limit - 1 := by simp; omega
  rw [memoryFrom, List.getD_eq_getElem?_getD, List.getElem?_append_right (by omega), hlen,
    Nat.sub_self]
  rfl

/-- A text that `snprintf` can count is pushed with its length. -/
theorem toSizeT_printed (h : text.length ≤ intMax) : toSizeT (printed text) = text.length := by
  have hlt : text.length < 2 ^ 64 := Nat.lt_of_le_of_lt h (by decide)
  rw [printed, if_pos h, toSizeT]
  omega

/-- One that it cannot count is pushed with the largest `size_t`. -/
theorem toSizeT_failed (h : ¬text.length ≤ intMax) : toSizeT (printed text) = 2 ^ 64 - 1 := by
  rw [printed, if_neg h]
  rfl

/-- When `snprintf` fails. -/
theorem printed_neg : printed text < 0 ↔ ¬text.length ≤ intMax := by
  rw [printed]
  split <;> omega

end Texts

/-- A line has no byte 0. -/
theorem AdminCall.zero_not_mem_line (call : AdminCall) : 0 ∉ call.line := by
  cases call with
  | append text => exact text.noZero
  | mon name value =>
    simp only [AdminCall.line, metricLine, List.mem_append, List.mem_replicate, List.mem_singleton]
    have hname := name.noZero
    have hvalue := value.noZero
    rintro ((((h | ⟨-, h⟩) | h) | h) | h)
    · exact hname h
    · exact absurd h (by decide)
    · exact absurd h (by decide)
    · exact hvalue h
    · exact absurd h (by decide)

namespace AdminData

variable {cut : List UInt8 → Nat → List UInt8} {d : AdminData} {call : AdminCall}
  {behind : Nat → UInt8}

/-! ### One call -/

/-- The response has room for what it has. -/
def Ok (d : AdminData) : Prop := d.response.used ≤ d.response.size

/-- **What a call does**. -/
inductive Outcome (d : AdminData) (call : AdminCall) (d' : AdminData) : Prop
  /-- The line fits and is pushed. -/
  | whole (hfits : call.Fits d.response.used d.response.size)
      (hresponse : d'.response = ⟨call.sizeAfter d.response.used d.response.size,
        d.response.bytes ++ call.line⟩)
      (hpushes : (∀ p ∈ d.pushes, p.1 ≤ p.2) → ∀ p ∈ d'.pushes, p.1 ≤ p.2)
  /-- A zero is pushed. -/
  | zero {bytes : List UInt8} (hnot : ¬call.Fits d.response.used d.response.size)
      (hzero : 0 ∈ bytes) (hbytes : d'.response.bytes = d.response.bytes ++ bytes)
  /-- A line that is not empty is lost. -/
  | lost (hnot : ¬call.Fits d.response.used d.response.size) (hline : call.line ≠ [])
      (hresponse : d'.response = d.response)
  /-- The push reads behind the buffer. -/
  | outside {p : Nat × Nat} (hnot : ¬call.Fits d.response.used d.response.size)
      (hp : p ∈ d'.pushes) (hlt : p.2 < p.1)

/-- Every push is noted with its limit. -/
theorem push_pushes (d : AdminData) (memory : Nat → UInt8) (size limit : Nat) :
    (d.push memory size limit).2.pushes = d.pushes ++ [(size, limit)] := rfl

/-- A push for which there is room. -/
theorem push_room {memory : Nat → UInt8} {size limit : Nat} (h : size ≤ d.response.free) :
    d.push memory size limit = (false,
      { response := ⟨d.response.size, d.response.bytes ++ readBytes memory size⟩
        pushes := d.pushes ++ [(size, limit)] }) := by
  rw [push, ByteBuf.push, if_pos (by rwa [length_readBytes])]

/-- A push for which there is none. -/
theorem push_full {memory : Nat → UInt8} {size limit : Nat} (h : d.response.free < size) :
    d.push memory size limit =
      (true, { response := d.response, pushes := d.pushes ++ [(size, limit)] }) := by
  rw [push, ByteBuf.push, if_neg (by rw [length_readBytes]; omega)]

theorem inBounds_append {p : Nat × Nat} (h : p.1 ≤ p.2) (hall : ∀ q ∈ d.pushes, q.1 ≤ q.2) :
    ∀ q ∈ d.pushes ++ [p], q.1 ≤ q.2 := by
  intro q hq
  rcases List.mem_append.mp hq with hq | hq
  · exact hall q hq
  · rwa [List.mem_singleton.mp hq]

/-- A push of more bytes than the buffer has. -/
theorem push_outside (memory : Nat → UInt8) {size limit : Nat}
    (hnot : ¬call.Fits d.response.used d.response.size) (h : limit < size) :
    Outcome d call (d.push memory size limit).2 :=
  .outside hnot (List.mem_append_right _ (.head _)) h

/-- **A call of `_append_response`.** -/
theorem appendResponse_outcome (h : d.Ok) (text : CText) (behind : Nat → UInt8) :
    Outcome d (.append text) (d.appendResponse text.bytes behind) := by
  rw [Ok] at h
  have hfree : d.response.free = d.response.size - d.response.used := rfl
  have hfits : AdminCall.Fits d.response.used d.response.size (.append text) ↔
      text.bytes.length < adminLineMaxLength ∧
        d.response.used + text.bytes.length ≤ d.response.size := Iff.rfl
  rw [appendResponse]
  by_cases hlen : text.bytes.length ≤ intMax
  · rw [toSizeT_printed hlen]
    by_cases hroom : text.bytes.length ≤ d.response.free
    · rw [push_room hroom]
      rcases Nat.lt_trichotomy text.bytes.length adminLineMaxLength with hlt | heq | hgt
      · -- the line is shorter than the buffer, and there is room
        have hfit : d.response.used + text.bytes.length ≤ d.response.size := by omega
        refine .whole ⟨hlt, hfit⟩ ?_ (inBounds_append (Nat.le_of_lt hlt))
        rw [readBytes_short hlt, AdminCall.sizeAfter, AdminCall.line, if_pos hfit]
      · exact .zero (by rw [hfits]; omega) (zero_mem_readBytes (by decide) heq) rfl
      · exact .outside (by rw [hfits]; omega) (List.mem_append_right _ (.head _)) hgt
    · rw [push_full (by omega)]
      refine .lost (by rw [hfits]; omega) (fun hnil => hroom ?_) rfl
      rw [AdminCall.line] at hnil
      rw [hnil]
      exact Nat.zero_le _
  · have hlt : adminLineMaxLength < 2 ^ 64 - 1 := by decide
    have hint : adminLineMaxLength ≤ intMax := by decide
    rw [toSizeT_failed hlen]
    exact push_outside _ (by rw [hfits]; omega) hlt

/-- `_mon_cb` calls `fmbuf_push` with the length of the line. -/
theorem monCb_pushes {text : List UInt8} (h : text.length ≤ intMax) :
    (text.length, adminCounterLineLength) ∈ (d.monCb cut text behind).pushes := by
  have hin : ∀ {pushes : List (Nat × Nat)},
      (text.length, adminCounterLineLength) ∈ pushes ++ [(text.length, adminCounterLineLength)] :=
    List.mem_append_right _ (.head _)
  rw [monCb, if_neg (by rw [printed_neg]; exact not_not.mpr h), toSizeT_printed h]
  by_cases hroom : text.length ≤ d.response.free
  · simp only [push_room hroom]
    exact hin
  · simp only [push_full (Nat.lt_of_not_le hroom), push_pushes]
    exact hin

/-- The pushes of `_mon_cb` that are not longer than what the response grows by succeed. -/
theorem monCb_eq (cut : List UInt8 → Nat → List UInt8) (behind : Nat → UInt8) (h : d.Ok)
    {text : List UInt8} (hlen : text.length ≤ 1024) :
    ∃ n, d.monCb cut text behind =
      { response :=
          ⟨if d.response.used + text.length ≤ d.response.size then d.response.size
            else d.response.size + 1024,
          d.response.bytes ++
            readBytes (memoryFrom adminCounterLineLength text behind) text.length⟩
        pushes := d.pushes ++ List.replicate n (text.length, adminCounterLineLength) } := by
  rw [Ok] at h
  have hint : text.length ≤ intMax := Nat.le_trans hlen (by decide)
  have hfree : d.response.free = d.response.size - d.response.used := rfl
  rw [monCb, if_neg (by rw [printed_neg]; exact not_not.mpr hint), toSizeT_printed hint]
  by_cases hroom : text.length ≤ d.response.free
  · refine ⟨1, ?_⟩
    simp only [push_room hroom, if_pos (show d.response.used + text.length ≤ d.response.size by omega)]
    rfl
  · refine ⟨2, ?_⟩
    -- the response grows, and has room then
    have hgrown : d.response.realloc cut (d.response.size + 1024) =
        ⟨d.response.size + 1024, d.response.bytes⟩ := by
      rw [ByteBuf.realloc, if_pos (by omega)]
    have hroom' : text.length ≤ (ByteBuf.free ⟨d.response.size + 1024, d.response.bytes⟩) := by
      show text.length ≤ d.response.size + 1024 - d.response.used
      omega
    simp only [push_full (Nat.lt_of_not_le hroom), hgrown]
    rw [push_room hroom', if_neg (by omega)]
    simp [List.replicate]

/-- **A call of `_mon_cb`.** -/
theorem monCb_outcome (h : d.Ok) (name value : CText) (behind : Nat → UInt8) :
    Outcome d (.mon name value) (d.monCb cut (metricLine name.bytes value.bytes) behind) := by
  by_cases hlen : (metricLine name.bytes value.bytes).length ≤ intMax
  · rcases Nat.lt_or_ge adminCounterLineLength (metricLine name.bytes value.bytes).length with
      hgt | hle
    · exact .outside (Nat.lt_asymm hgt) (monCb_pushes hlen) hgt
    · obtain ⟨n, hcb⟩ := monCb_eq cut behind h
        (Nat.le_trans hle (by decide : adminCounterLineLength ≤ 1024))
      rcases Nat.lt_or_eq_of_le hle with hlt | heq
      · refine .whole hlt ?_ fun hall p hp => ?_
        · rw [hcb, readBytes_short hlt]
          rfl
        · rw [hcb] at hp
          rcases List.mem_append.mp hp with hp | hp
          · exact hall p hp
          · rw [(List.mem_replicate.mp hp).2]
            exact hle
      · exact .zero (fun hfits => Nat.ne_of_lt hfits heq) (zero_mem_readBytes (by decide) heq) (by rw [hcb])
  · have hint : adminCounterLineLength ≤ intMax := by decide
    rw [monCb, if_pos (printed_neg.mpr hlen)]
    refine .lost (fun hfits => hlen ?_) (by simp [AdminCall.line, metricLine]) rfl
    exact Nat.le_trans (Nat.le_of_lt hfits) hint

/-- Every call has such an outcome. -/
theorem exec_outcome (cut : List UInt8 → Nat → List UInt8) (h : d.Ok)
    (c : AdminCall × (Nat → UInt8)) :
    Outcome d c.1 (d.exec cut c) := by
  obtain ⟨call, behind⟩ := c
  cases call with
  | append text => exact appendResponse_outcome h text behind
  | mon name value => exact monCb_outcome h name value behind

/-- A push keeps the buffer well formed. -/
theorem push_ok (h : d.Ok) (memory : Nat → UInt8) (size limit : Nat) :
    (d.push memory size limit).2.Ok := by
  by_cases hroom : size ≤ d.response.free
  · have hfree : d.response.free = d.response.size - d.response.used := rfl
    rw [Ok] at h
    rw [push_room hroom, Ok, ByteBuf.used, List.length_append, length_readBytes]
    show d.response.used + size ≤ d.response.size
    omega
  · rw [push_full (Nat.lt_of_not_le hroom)]
    exact h

theorem exec_ok (h : d.Ok) (c : AdminCall × (Nat → UInt8)) : (d.exec cut c).Ok := by
  obtain ⟨call, behind⟩ := c
  cases call with
  | append text => exact push_ok h _ _ _
  | mon name value =>
    show (d.monCb cut _ behind).Ok
    rw [monCb]
    split
    · exact h
    · dsimp only
      split
      next d' hpush =>
        have hd : (d.push _ _ _).2 = d' := congrArg Prod.snd hpush
        exact hd ▸ push_ok h _ _ _
      next d' hpush =>
        have hd : (d.push _ _ _).2 = d' := congrArg Prod.snd hpush
        have hok : d'.Ok := hd ▸ push_ok h _ _ _
        rw [Ok] at hok
        apply push_ok
        show ByteBuf.used _ ≤ d'.response.size + 1024
        rw [ByteBuf.used, ByteBuf.realloc, if_pos (by omega)]
        exact Nat.le_add_right_of_le hok

/-- The pushes of before are still there. -/
theorem exec_pushes {p : Nat × Nat} (h : p ∈ d.pushes) (c : AdminCall × (Nat → UInt8)) :
    p ∈ (d.exec cut c).pushes := by
  obtain ⟨call, behind⟩ := c
  cases call with
  | append text => exact List.mem_append_left _ h
  | mon name value =>
    show p ∈ (d.monCb cut _ behind).pushes
    rw [monCb]
    split
    · exact h
    · dsimp only
      split
      next d' hpush =>
        have hp := congrArg (fun r => r.2.pushes) hpush
        exact hp ▸ List.mem_append_left _ h
      next d' hpush =>
        have hp := congrArg (fun r => r.2.pushes) hpush
        exact List.mem_append_left _ (hp ▸ List.mem_append_left _ h)

/-! ### All calls -/

/-- A push that was noted stays noted. -/
theorem run_pushes {p : Nat × Nat} (h : p ∈ d.pushes) (calls : List (AdminCall × (Nat → UInt8))) :
    p ∈ (calls.foldl (exec cut) d).pushes := by
  induction calls generalizing d with
  | nil => exact h
  | cons c calls ih => exact ih (exec_pushes h c)

end AdminData

namespace AdminCall

variable {used size : Nat} {call : AdminCall}

/-- A line that fits is not cut. -/
theorem Fits.cutLine (h : call.Fits used size) : call.cutLine = call.line := by
  have hlt : call.line.length < call.limit := by
    cases call with
    | append text => exact h.1
    | mon name value => exact h
  exact List.take_of_length_le (by omega)

theorem cutLine_ne_nil (h : call.line ≠ []) : call.cutLine ≠ [] := by
  have hlimit : call.limit - 1 ≠ 0 := by
    cases call with
    | append text => exact (by decide : adminLineMaxLength - 1 ≠ 0)
    | mon name value => exact (by decide : adminCounterLineLength - 1 ≠ 0)
  rw [AdminCall.cutLine, Ne, List.take_eq_nil_iff]
  exact not_or.mpr ⟨hlimit, h⟩

/-- There is no byte 0 in the cut lines either. -/
theorem zero_not_mem_cutLines (calls : List AdminCall) : 0 ∉ calls.flatMap AdminCall.cutLine := by
  intro h
  obtain ⟨call, -, hmem⟩ := List.mem_flatMap.mp h
  exact call.zero_not_mem_line (List.mem_of_mem_take hmem)

end AdminCall

namespace AdminData

variable {cut : List UInt8 → Nat → List UInt8} {d : AdminData}

/-- **What the response is after calls** that do not read behind their buffers: it has a zero, or
    less than the lines, or the lines, and they fit. -/
theorem run_cases {calls : List (AdminCall × (Nat → UInt8))} (h : d.Ok)
    (hin : ∀ p ∈ (calls.foldl (exec cut) d).pushes, p.1 ≤ p.2) :
    ∃ bytes, (calls.foldl (exec cut) d).response.bytes = d.response.bytes ++ bytes ∧
      (0 ∈ bytes ∨ bytes.length < ((calls.map Prod.fst).flatMap AdminCall.cutLine).length ∨
        bytes = (calls.map Prod.fst).flatMap AdminCall.cutLine ∧
          AdminCall.AllFit d.response.used d.response.size (calls.map Prod.fst)) := by
  induction calls generalizing d with
  | nil => exact ⟨[], (List.append_nil _).symm, .inr (.inr ⟨rfl, trivial⟩)⟩
  | cons c calls ih =>
    obtain ⟨bytes, hbytes, hcases⟩ := ih (exec_ok h c) hin
    have hlen : ((List.map Prod.fst (c :: calls)).flatMap AdminCall.cutLine).length =
        c.1.cutLine.length + ((calls.map Prod.fst).flatMap AdminCall.cutLine).length := by simp
    rw [hlen]
    simp only [List.foldl_cons, hbytes]
    cases exec_outcome cut h c with
    | whole hfits hresponse hpushes =>
      refine ⟨c.1.line ++ bytes, by rw [hresponse, List.append_assoc], ?_⟩
      -- the line is there; the rest decides
      rcases hcases with hzero | hshort | ⟨hall, hfit⟩
      · exact .inl (List.mem_append_right _ hzero)
      · refine .inr (.inl ?_)
        rw [List.length_append, hfits.cutLine]
        omega
      · refine .inr (.inr ⟨?_, hfits, ?_⟩)
        · rw [hall, ← hfits.cutLine]
          rfl
        · rw [hresponse, ByteBuf.used, List.length_append] at hfit
          exact hfit
    | zero hnot hzero hb =>
      rw [hb, List.append_assoc]
      exact ⟨_, rfl, .inl (List.mem_append_left _ hzero)⟩
    | lost hnot hline hresponse =>
      -- the line is not there, so the response is too short from here on
      have hpos := List.length_pos_iff.mpr (AdminCall.cutLine_ne_nil hline)
      refine ⟨bytes, by rw [hresponse], ?_⟩
      rcases hcases with hzero | hshort | ⟨hall, -⟩
      · exact .inl hzero
      · exact .inr (.inl (by omega))
      · exact .inr (.inl (by rw [hall]; omega))
    | outside hnot hp hlt =>
      have hle := hin _ (run_pushes hp calls)
      omega

/-- The lines that fit are pushed. -/
theorem run_fits (cut : List UInt8 → Nat → List UInt8)
    {calls : List (AdminCall × (Nat → UInt8))} (h : d.Ok)
    (hin : ∀ p ∈ d.pushes, p.1 ≤ p.2)
    (hfit : AdminCall.AllFit d.response.used d.response.size (calls.map Prod.fst)) :
    (∀ p ∈ (calls.foldl (exec cut) d).pushes, p.1 ≤ p.2) ∧
      (calls.foldl (exec cut) d).response.bytes =
        d.response.bytes ++ (calls.map Prod.fst).flatMap AdminCall.cutLine := by
  induction calls generalizing d with
  | nil => exact ⟨hin, (List.append_nil _).symm⟩
  | cons c calls ih =>
    obtain ⟨hfits, hrest⟩ := hfit
    cases exec_outcome cut h c with
    | whole _ hresponse hpushes =>
      have hused : (d.exec cut c).response.used = d.response.used + c.1.line.length := by
        rw [hresponse, ByteBuf.used, List.length_append]
        rfl
      have hsize : (d.exec cut c).response.size =
          c.1.sizeAfter d.response.used d.response.size := by rw [hresponse]
      obtain ⟨hbounds, hbytes⟩ := ih (exec_ok h c) (hpushes hin) (by rw [hused, hsize]; exact hrest)
      refine ⟨hbounds, ?_⟩
      rw [List.foldl_cons, hbytes, hresponse, ← hfits.cutLine]
      simp
    | zero hnot => exact absurd hfits hnot
    | lost hnot => exact absurd hfits hnot
    | outside hnot => exact absurd hfits hnot

end AdminData

/-- **When the response is complete**: exactly when all lines fit. -/
theorem complete_iff (cut : List UInt8 → Nat → List UInt8)
    (calls : List (AdminCall × (Nat → UInt8))) :
    Complete (calls.map Prod.fst) (AdminData.run cut calls) ↔
      AdminCall.AllFit 0 adminRespMaxLength (calls.map Prod.fst) := by
  have hok : AdminData.create.Ok := Nat.zero_le _
  constructor
  · intro h
    obtain ⟨bytes, hbytes, hcases⟩ := AdminData.run_cases hok h.inBounds
    have hcontent : bytes = (calls.map Prod.fst).flatMap AdminCall.cutLine :=
      hbytes.symm.trans h.content
    rcases hcases with hzero | hshort | ⟨-, hfit⟩
    · rw [hcontent] at hzero
      exact absurd hzero (AdminCall.zero_not_mem_cutLines _)
    · rw [hcontent] at hshort
      omega
    · exact hfit
  · intro hfit
    obtain ⟨hbounds, hbytes⟩ := AdminData.run_fits cut hok (by simp [AdminData.create]) hfit
    exact ⟨hbounds, hbytes⟩

/-- Two lines: the start of a status, and a metric. -/
def statusCalls : List (AdminCall × (Nat → UInt8)) :=
  [(.append ⟨[112, 105, 100, 10], by decide⟩, fun _ => 0),
    (.mon ⟨[117, 112], by decide⟩ ⟨[49], by decide⟩, fun _ => 0)]

example : AdminCall.AllFit 0 adminRespMaxLength (statusCalls.map Prod.fst) := by decide

/-- A line of one byte more than its buffer, such as one with a long path. -/
def longLine : CText :=
  ⟨List.replicate 1025 97, fun h => absurd (List.eq_of_mem_replicate h) (by decide)⟩

/-- What a response of one text pushes. -/
theorem run_append_pushes (cut : List UInt8 → Nat → List UInt8) (text : CText)
    (behind : Nat → UInt8) : (AdminData.run cut [(.append text, behind)]).pushes =
      [(toSizeT (printed text.bytes), adminLineMaxLength)] := rfl

/-- A line that is too long is pushed with what is behind its buffer. -/
theorem longLine_overread : ¬Complete [.append longLine]
    (AdminData.run (fun _ _ => []) [(.append longLine, fun _ => 0)]) := by
  intro h
  have hlen : longLine.bytes.length = 1025 := List.length_replicate
  have hsize : toSizeT (printed longLine.bytes) = 1025 := by
    rw [toSizeT_printed (by rw [hlen]; decide), hlen]
  have hmem : (1025, adminLineMaxLength) ∈
      (AdminData.run (fun _ _ => []) [(.append longLine, fun _ => 0)]).pushes := by
    rw [run_append_pushes, hsize]
    exact .head _
  exact absurd (h.inBounds _ hmem) (by decide)

end Skull
