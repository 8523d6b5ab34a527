import Pint.Lib.Prefixed
import Pint.Lib.Run
import Pint.Program.Logger
import Pint.Proof.MapUpdates

/-!
# Texts for the log

A text travels with its length in front and without the 0 that ends it, so any bytes can be sent,
and they arrive: the buffers of Logger hold the texts of Load, in order (`onMsgBuffers_nexts`).
But Logger prints such a buffer with `%s`, which looks for a 0, and a text has none.

The way through the pipe is `Lib.Prefixed`: a header that holds the length, and so many bytes
behind it. `recvMsgBuffer` is `next` of that library wherever a whole message is there, and the
buffer that it allocates is just as long as the text. What `%s` then reads is the buffer up to
the first 0; without one it goes on behind the end of the buffer, which is a fault here
(`cString_of_not_mem`).

The other half is the pointer. It is set when the header was read whole, whatever comes behind
it, and `Logger` prints and frees without looking at what `recvMsgBuffer` answered
(`pointerSet_iff`).
-/

namespace Pint

open Prog

/-- The lengths are written as `int`s. -/
def intHeader : Prefixed.Header Byte where
  width := 4
  limit := 2147483647
  put n := intBytes n
  get bytes := if 0 ≤ intOfBytes bytes then some (intOfBytes bytes).toNat else none
  length_put _ := rfl
  get_put n hn := by
    have hn' : wrapInt (n : Int) = n := wrapInt_of_small (Int.natCast_nonneg n) (by omega)
    rw [intOfBytes_intBytes, hn', if_pos (Int.natCast_nonneg n), Int.toNat_natCast]

/-- The two ends of a pipe for texts. -/
structure LogPipe where
  load : TypedPipe
  logger : TypedPipe
  load_open : ¬ (load.fdOut = 0 ∨ load.type ≠ .msgBuffer)
  logger_open : ¬ (logger.fdIn = 0 ∨ logger.type ≠ .msgBuffer)

variable {p : LogPipe} {fresh : Nat → Byte} {text block unread rest : List Byte} {s : Logger}

theorem malloc_of_nonneg {n : Nat} : malloc fresh n = .array ((List.range n).map fresh) := by
  unfold malloc
  rw [if_neg (by omega), Int.toNat_natCast]

/-- The array of a `read` that fills it. -/
theorem storeBytes_fill {buffer bytes : List Byte} (h : bytes.length = buffer.length) :
    storeBytes buffer 0 bytes = .ok bytes := by
  unfold storeBytes
  rw [if_pos (by omega), List.take_zero, List.nil_append, Nat.zero_add,
    List.drop_of_length_le (by omega), List.append_nil]

/-! ## Load -/

/-- **What Load writes**: the text with its length in front. -/
theorem perCyclePedestrian_eq (h : text.length ≤ intHeader.limit) :
    perCyclePedestrian p.load fresh text = .ok (intHeader.frame text) := by
  have hlt : text.length < 2147483648 := Nat.lt_succ_of_le h
  have hsum : (4 : Int) + text.length = ((4 + text.length : Nat) : Int) := by omega
  have hhead : storeBytes ((List.range (4 + text.length)).map fresh) 0 (intBytes text.length)
      = .ok (intBytes text.length ++ ((List.range (4 + text.length)).map fresh).drop 4) := by
    unfold storeBytes
    rw [if_pos (by simp), List.take_zero, List.nil_append]
    rfl
  have hbody : storeBytes
      (intBytes text.length ++ ((List.range (4 + text.length)).map fresh).drop 4) 4 text
      = .ok (intBytes text.length ++ text) := by
    unfold storeBytes
    rw [if_pos (by simp), List.take_left' (length_intBytes _),
      List.drop_of_length_le (by simp), List.append_nil]
  unfold perCyclePedestrian asprintf
  dsimp only
  rw [if_pos hlt]
  unfold commSendMsgBuffer
  rw [if_neg p.load_open, hsum, malloc_of_nonneg]
  simp only [CharPtr.bytes, CharPtr.free, ok_bind, hhead, List.length_append, Int.toNat_natCast,
    List.take_left]
  rw [if_pos (by simp), hbody]
  rfl

/-- A text that is too long cannot be sent. -/
theorem perCyclePedestrian_long (h : ¬ text.length ≤ intHeader.limit) :
    perCyclePedestrian p.load fresh text = .error .outOfRange := by
  have hlt : ¬ text.length < 2147483648 := fun hc => h (Nat.le_of_lt_succ hc)
  unfold perCyclePedestrian asprintf
  dsimp only
  rw [if_neg hlt]
  unfold commSendMsgBuffer
  rw [if_neg p.load_open]
  rfl

/-- What Load writes with these texts. -/
def sendTexts (pipe : TypedPipe) (fresh : Nat → Nat → Byte) :
    List (List Byte) → Except Fault (List Byte)
  | [] => return []
  | text :: texts => do
    let written ← perCyclePedestrian pipe (fresh texts.length) text
    return written ++ (← sendTexts pipe fresh texts)

theorem sendTexts_eq {fresh : Nat → Nat → Byte} {texts : List (List Byte)}
    (h : ∀ text ∈ texts, text.length ≤ intHeader.limit) :
    sendTexts p.load fresh texts = .ok (intHeader.frames texts) := by
  induction texts with
  | nil => rfl
  | cons text texts ih =>
    unfold sendTexts
    rw [perCyclePedestrian_eq (h text List.mem_cons_self),
      ih fun t ht => h t (List.mem_cons_of_mem text ht)]
    rfl

/-! ## Logger -/

theorem msgBufferTaken_whole (h : 4 ≤ unread.length) : msgBufferTaken p.logger unread
    = min (4 + (intOfBytes (unread.take 4)).toNat) unread.length := by
  unfold msgBufferTaken
  rw [if_neg p.logger_open, if_neg (by omega)]

/-- A whole header fills the length. -/
theorem storeBytes_length (length : Int) (h : 4 ≤ unread.length) :
    storeBytes (intBytes length) 0 (unread.take 4) = .ok (unread.take 4) :=
  storeBytes_fill (by rw [List.length_take, length_intBytes]; omega)

/-- **A message that is there is received**: its buffer has just the size of the text. -/
theorem recvMsgBuffer_next {msg : CommMsgBuffer} (h : intHeader.next unread = some (block, rest)) :
    ∃ got, recvMsgBuffer p.logger fresh msg unread = .ok got ∧
      got.msg = { length := block.length, message := .array block } ∧ got.unread = rest := by
  obtain ⟨hlength, hlen, hblock, hrest⟩ := intHeader.next_eq_some h
  have hwidth : intHeader.width = 4 := rfl
  rw [hwidth] at hlength hlen hblock hrest
  -- The header's integer is the length of the block behind it.
  have hint : intOfBytes (unread.take 4) = block.length := by
    unfold intHeader at hlength
    dsimp only at hlength
    split at hlength
    · have := Option.some.inj hlength
      omega
    · cases hlength
  have hhead : (unread.take 4).length = 4 := by
    rw [List.length_take]
    omega
  have hstore := storeBytes_length msg.length (Nat.le_trans (Nat.le_add_right _ _) hlen)
  have htaken : msgBufferTaken p.logger unread = 4 + block.length := by
    rw [msgBufferTaken_whole (by omega), hint]
    omega
  unfold recvMsgBuffer commRecvMsgBuffer msgBufferReads
  rw [if_neg p.logger_open, htaken, hrest]
  simp only [hstore, ok_bind, hhead, if_true, hint, malloc_of_nonneg, Int.toNat_natCast, hblock]
  by_cases hpos : (block.length : Int) > 0
  · rw [if_pos hpos]
    simp only [CharPtr.bytes, ok_bind]
    rw [storeBytes_fill (by simp)]
    exact ⟨_, rfl, rfl, rfl⟩
  · obtain rfl : block = [] := List.eq_nil_of_length_eq_zero (by omega)
    rw [if_neg hpos]
    exact ⟨_, rfl, rfl, rfl⟩

/-- A message without its whole header is not received: the pointer is as it was. -/
theorem recvMsgBuffer_short {msg : CommMsgBuffer} (h : unread.length < 4) :
    ∃ got, recvMsgBuffer p.logger fresh msg unread = .ok got ∧ got.msg.message = msg.message := by
  have hhead : (unread.take 4).length = unread.length := by
    rw [List.length_take]
    omega
  have hstore : ∃ bytes, storeBytes (intBytes msg.length) 0 (unread.take 4) = .ok bytes :=
    ⟨_, if_pos (by rw [hhead, length_intBytes]; omega)⟩
  obtain ⟨bytes, hstore⟩ := hstore
  unfold recvMsgBuffer commRecvMsgBuffer msgBufferReads
  rw [if_neg p.logger_open]
  simp only [hstore, ok_bind]
  rw [if_neg (by omega)]
  exact ⟨_, rfl, rfl⟩

/-- With its header, it sets the pointer, whatever else of it is there. -/
theorem recvMsgBuffer_whole {msg : CommMsgBuffer} (h : 4 ≤ unread.length) :
    ∃ got, recvMsgBuffer p.logger fresh msg unread = .ok got ∧ got.msg.message ≠ .unset := by
  have hhead : (unread.take 4).length = 4 := by
    rw [List.length_take]
    omega
  have hstore := storeBytes_length msg.length h
  unfold recvMsgBuffer commRecvMsgBuffer msgBufferReads
  rw [if_neg p.logger_open]
  simp only [hstore, ok_bind, hhead, if_true]
  by_cases hpos : intOfBytes (unread.take 4) > 0
  · obtain ⟨n, hn⟩ := Int.eq_ofNat_of_zero_le (Int.le_of_lt hpos)
    have hbody : ∃ buffer, storeBytes ((List.range n).map fresh) 0 ((unread.drop 4).take n)
        = .ok buffer := ⟨_, if_pos (by simp)⟩
    obtain ⟨buffer, hbody⟩ := hbody
    rw [if_pos hpos, hn, malloc_of_nonneg]
    simp only [CharPtr.bytes, ok_bind, Int.toNat_natCast, hbody]
    exact ⟨_, rfl, CharPtr.noConfusion⟩
  · rw [if_neg hpos]
    refine ⟨_, rfl, ?_⟩
    show malloc fresh (intOfBytes (unread.take 4)) ≠ .unset
    unfold malloc
    split
    · exact CharPtr.noConfusion
    · exact CharPtr.noConfusion

/-- A 0 is needed to know where a string ends. -/
theorem cString_of_mem (h : 0 ∈ block) : cString block = .ok (block.takeWhile (· ≠ 0)) := by
  induction block with
  | nil => exact absurd h List.not_mem_nil
  | cons b block ih =>
    unfold cString
    by_cases hb : b = 0
    · rw [if_pos hb, List.takeWhile_cons_of_neg (by simp [hb])]
      rfl
    · have hmem : 0 ∈ block := (List.mem_cons.mp h).resolve_left (Ne.symm hb)
      rw [if_neg hb, ih hmem, List.takeWhile_cons_of_pos (by simp [hb])]
      rfl

theorem cString_of_not_mem (h : 0 ∉ block) : cString block = .error .outOfRange := by
  induction block with
  | nil => rfl
  | cons b block ih =>
    have hb : ¬ b = 0 := fun hc => h (hc ▸ List.mem_cons_self)
    have hmem : 0 ∉ block := fun hc => h (List.mem_cons_of_mem b hc)
    unfold cString
    rw [if_neg hb, ih hmem]
    rfl

theorem cString_ne_uninitialised (h : cString block = .error .uninitialised) : False := by
  by_cases hmem : 0 ∈ block
  · rw [cString_of_mem hmem] at h
    cases h
  · rw [cString_of_not_mem hmem] at h
    cases h

/-- What Logger does with a message that is there. -/
def Logger.onBlock (block : List Byte) (s : Logger) : Except Fault Logger :=
  if s.finished then .ok s
  else do
    let printed ← cString block
    return { s with logFile := s.logFile ++ [loggedMsg printed] }

theorem onMsgBuffer_next (h : intHeader.next unread = some (block, rest)) :
    s.onMsgBuffer p.logger fresh unread = (s.onBlock block).map fun s' => (s', rest) := by
  obtain ⟨got, hrecv, hmsg, hrest⟩ : ∃ got, recvMsgBuffer p.logger fresh {} unread = .ok got ∧
      got.msg = { length := block.length, message := .array block } ∧ got.unread = rest :=
    recvMsgBuffer_next h
  unfold Logger.onMsgBuffer Logger.onBlock
  rw [hrecv, ok_bind, hmsg, hrest]
  cases hfin : s.finished with
  | true => rfl
  | false =>
    simp only [CharPtr.bytes, CharPtr.free, ok_bind, Bool.false_eq_true, if_false]
    cases cString block with
    | ok printed => rfl
    | error e => rfl

/-- Both the printing and the `free` use the pointer. -/
theorem onMsgBuffer_uninitialised_iff {got : MsgBufferRecv}
    (h : recvMsgBuffer p.logger fresh {} unread = .ok got) :
    s.onMsgBuffer p.logger fresh unread = .error .uninitialised ↔ got.msg.message = .unset := by
  unfold Logger.onMsgBuffer
  rw [h, ok_bind]
  cases hmessage : got.msg.message with
  | unset =>
    refine iff_of_true ?_ rfl
    cases hfin : s.finished <;> rfl
  | null =>
    refine iff_of_false ?_ CharPtr.noConfusion
    cases hfin : s.finished <;> exact fun hc => by cases hc
  | array bytes =>
    refine iff_of_false ?_ CharPtr.noConfusion
    cases hfin : s.finished with
    | true => exact fun hc => by cases hc
    | false =>
      simp only [CharPtr.bytes, CharPtr.free, ok_bind, Bool.false_eq_true, if_false]
      cases hprint : cString bytes with
      | ok printed => exact fun hc => by cases hc
      | error e =>
        rintro hc
        obtain rfl := Except.error.inj hc
        exact cString_ne_uninitialised hprint

/-- **The messages arrive as they were sent.** -/
theorem onMsgBuffers_nexts {fresh : Nat → Nat → Byte} {n : Nat} {blocks : List (List Byte)}
    (h : intHeader.nexts n unread = some (blocks, rest)) :
    s.onMsgBuffers p.logger fresh n unread
      = (runAll Logger.onBlock blocks s).map fun s' => (s', rest) := by
  induction n generalizing s unread blocks with
  | zero =>
    obtain ⟨rfl, rfl⟩ := Prod.mk.inj (Option.some.inj h)
    rfl
  | succ n ih =>
    obtain ⟨block, unread', blocks', hnext, hnexts, rfl⟩ := intHeader.nexts_succ h
    unfold Logger.onMsgBuffers runAll
    rw [onMsgBuffer_next hnext]
    cases hblock : s.onBlock block with
    | ok t => exact ih hnexts
    | error e => rfl

/-! ## Printing -/

/-- **What Logger can print**, until it is finished: the messages that bring a 0. -/
theorem onBlock_step (hs : s.finished = false) (block : List Byte) :
    (0 ∈ block ∧ ∃ s', s.onBlock block = .ok s' ∧ s'.finished = false) ∨
      (0 ∉ block ∧ ∃ e, s.onBlock block = .error e) := by
  unfold Logger.onBlock
  rw [if_neg (by simp [hs])]
  by_cases hmem : 0 ∈ block
  · rw [cString_of_mem hmem]
    exact Or.inl ⟨hmem, _, rfl, hs⟩
  · rw [cString_of_not_mem hmem]
    exact Or.inr ⟨hmem, _, rfl⟩

theorem runAll_onBlock_iff {blocks : List (List Byte)} (hs : s.finished = false) :
    (∃ s', runAll Logger.onBlock blocks s = .ok s') ↔ ∀ block ∈ blocks, 0 ∈ block :=
  runAll.completes_iff_forall (fun block _ h => onBlock_step h block) hs

/-- When it is finished it prints nothing. -/
theorem runAll_onBlock_finished {blocks : List (List Byte)} (hs : s.finished = true) :
    runAll Logger.onBlock blocks s = .ok s := by
  induction blocks with
  | nil => rfl
  | cons block blocks ih =>
    unfold runAll Logger.onBlock
    rw [if_pos hs]
    exact ih

/-! ## From Load to the log -/

/-- Load sends these texts, and Logger takes as many messages out of the pipe. -/
def logTexts (p : LogPipe) (loadMem loggerMem : Nat → Nat → Byte) (s : Logger)
    (texts : List (List Byte)) : Except Fault (Logger × List Byte) := do
  let unread ← sendTexts p.load loadMem texts
  s.onMsgBuffers p.logger loggerMem texts.length unread

/-- The log has just these texts more, and nothing is left in the pipe. -/
def Logged (p : LogPipe) (loadMem loggerMem : Nat → Nat → Byte) (s : Logger)
    (texts : List (List Byte)) : Prop :=
  logTexts p loadMem loggerMem s texts
    = .ok ({ s with logFile := s.logFile ++ texts.map loggedMsg }, [])

/-- Logger does not use a pointer that was not set. -/
def PointerSet (p : LogPipe) (fresh : Nat → Byte) (s : Logger) (unread : List Byte) : Prop :=
  s.onMsgBuffer p.logger fresh unread ≠ .error .uninitialised

section Logging

variable {loadMem loggerMem : Nat → Nat → Byte} {texts : List (List Byte)}

/-- What Load writes is what Logger has to print. -/
theorem logTexts_eq (h : ∀ text ∈ texts, text.length ≤ intHeader.limit) :
    logTexts p loadMem loggerMem s texts
      = (runAll Logger.onBlock texts s).map fun s' => (s', []) := by
  have hnexts : intHeader.nexts texts.length (intHeader.frames texts ++ []) = some (texts, []) :=
    intHeader.nexts_frames h
  rw [List.append_nil] at hnexts
  unfold logTexts
  rw [sendTexts_eq h]
  exact onMsgBuffers_nexts hnexts

theorem sendTexts_long (h : ¬ ∀ text ∈ texts, text.length ≤ intHeader.limit) :
    ∃ e, sendTexts p.load loadMem texts = .error e := by
  induction texts with
  | nil => exact absurd (fun text ht => absurd ht List.not_mem_nil) h
  | cons text texts ih =>
    unfold sendTexts
    by_cases hle : text.length ≤ intHeader.limit
    · rw [perCyclePedestrian_eq hle, ok_bind]
      obtain ⟨e, he⟩ := ih fun hc => h (List.forall_mem_cons.mpr ⟨hle, hc⟩)
      rw [he]
      exact ⟨e, rfl⟩
    · rw [perCyclePedestrian_long hle]
      exact ⟨_, rfl⟩

/-- Texts without a 0 do not get into the log. -/
theorem not_logged (h : ∀ text ∈ texts, 0 ∉ text) (hne : texts ≠ []) :
    ¬ Logged p loadMem loggerMem s texts := by
  unfold Logged
  by_cases hle : ∀ text ∈ texts, text.length ≤ intHeader.limit
  · rw [logTexts_eq hle]
    cases hfin : s.finished with
    | true =>
      rw [runAll_onBlock_finished hfin]
      intro heq
      have hlog := congrArg (fun r => r.1.logFile) (Except.ok.inj heq)
      exact hne (List.map_eq_nil_iff.mp (List.append_right_eq_self.mp hlog.symm))
    | false =>
      obtain ⟨text, htext⟩ := List.exists_mem_of_ne_nil texts hne
      intro heq
      cases hrun : runAll Logger.onBlock texts s with
      | ok s' => exact h text htext ((runAll_onBlock_iff hfin).mp ⟨s', hrun⟩ text htext)
      | error e =>
        rw [hrun] at heq
        cases heq
  · obtain ⟨e, he⟩ : ∃ e, sendTexts p.load loadMem texts = .error e := sendTexts_long hle
    unfold logTexts
    rw [he]
    exact fun hc => by cases hc

theorem logged_nil : Logged p loadMem loggerMem s [] := by
  unfold Logged
  rw [List.map_nil, List.append_nil]
  rfl

/-- **The pointer is set exactly if the header is there whole.** -/
theorem pointerSet_iff : PointerSet p fresh s unread ↔ 4 ≤ unread.length := by
  unfold PointerSet
  rw [← not_lt, not_iff_not]
  constructor
  · intro herr
    by_contra hlen
    obtain ⟨got, hrecv, hset⟩ : ∃ got, recvMsgBuffer p.logger fresh {} unread = .ok got ∧
        got.msg.message ≠ .unset := recvMsgBuffer_whole (Nat.not_lt.mp hlen)
    exact hset ((onMsgBuffer_uninitialised_iff hrecv).mp herr)
  · intro hlen
    obtain ⟨got, hrecv, hset⟩ : ∃ got, recvMsgBuffer p.logger fresh {} unread = .ok got ∧
        got.msg.message = .unset := recvMsgBuffer_short hlen
    exact (onMsgBuffer_uninitialised_iff hrecv).mpr hset

/-- **What gets into the log**: no text at all. A text has no 0 in it, so `%s` runs over the end of
the buffer at the first one. The pointer is another matter: it is set as soon as a header is
there. -/
theorem logged_iff (h : ∀ text ∈ texts, 0 ∉ text) :
    (Logged p loadMem loggerMem s texts ↔ texts = []) ∧
      (PointerSet p fresh s unread ↔ 4 ≤ unread.length) := by
  refine ⟨⟨fun hlog => ?_, ?_⟩, pointerSet_iff⟩
  · by_contra hne
    exact not_logged h hne hlog
  · rintro rfl
    exact logged_nil

/-- A pipe from Load to Logger. -/
def logPipe : LogPipe where
  load := { type := .msgBuffer, fdOut := 4 }
  logger := { type := .msgBuffer, fdIn := 3 }
  load_open := by decide
  logger_open := by decide

theorem logged_iff_two :
    (Logged logPipe (fun _ _ => 0) (fun _ _ => 0) {} [[72, 105], []] ↔
        ([[72, 105], []] : List (List Byte)) = []) ∧
      (PointerSet logPipe (fun _ => 0) {} [2, 0] ↔ 4 ≤ ([2, 0] : List Byte).length) := by
  have hbytes : ∀ text ∈ ([[72, 105], []] : List (List Byte)), 0 ∉ text := by decide
  exact logged_iff hbytes

/-- A text of two bytes is printed from a buffer of two bytes; and half a header leaves a pointer
that is used. -/
theorem text_is_not_logged :
    ¬ Logged logPipe (fun _ _ => 0) (fun _ _ => 0) {} [[72, 105]] ∧
      ¬ PointerSet logPipe (fun _ => 0) {} [2, 0] :=
  ⟨not_logged (by decide) (List.cons_ne_nil _ _), fun h => h rfl⟩

end Logging

end Pint
