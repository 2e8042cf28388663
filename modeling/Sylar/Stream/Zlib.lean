import Sylar.Data.Transducer
import Sylar.Rock.Decoder

namespace Sylar

open Logic Data

/-! `ZlibStream` over one direction of zlib. `deflate` and `inflate` are called
in the same way, and of what they return only `Z_STREAM_ERROR` is looked at: it
is the call that is refused. -/

/-- The default of `CreateGzip`. -/
def buffSize : Nat := 4096

structure ZlibStream (z : Transducer UInt8) where
  zstream : z.S
  /-- the bytes of each region up to its `len` -/
  buffs : List Bytes
  small : ∀ ivc ∈ buffs, ivc.length ≤ buffSize

namespace ZlibStream

variable {z : Transducer UInt8}

def create (z : Transducer UInt8) : ZlibStream z :=
  ⟨z.init, [], by simp⟩

/-- The regions before the one that is written to next, and that one: the last,
unless it is full. -/
def room (s : ZlibStream z) : List Bytes × Bytes :=
  match s.buffs.getLast? with
  | some back =>
      if back.length ≠ buffSize then (s.buffs.dropLast, back) else (s.buffs, [])
  | none => (s.buffs, [])

theorem room_flatten (s : ZlibStream z) :
    s.room.1.flatten ++ s.room.2 = s.buffs.flatten := by
  unfold room
  split
  · rename_i back last
    split
    · rw [← List.flatten_concat, List.dropLast_append_getLast? back last]
    · rw [List.append_nil]
  · rw [List.append_nil]

theorem room_small (s : ZlibStream z) : ∀ ivc ∈ s.room.1, ivc.length ≤ buffSize := by
  unfold room
  split
  · split
    · exact fun ivc member => s.small ivc (List.dropLast_subset _ member)
    · exact s.small
  · exact s.small

theorem room_lt (s : ZlibStream z) : s.room.2.length < buffSize := by
  unfold room
  split
  · rename_i back last
    split
    · exact Nat.lt_of_le_of_ne (s.small back (List.mem_of_getLast? last)) ‹_›
    · exact Nat.zero_lt_succ _
  · exact Nat.zero_lt_succ _

def avail_out (s : ZlibStream z) : Nat :=
  buffSize - s.room.2.length

theorem avail_out_pos (s : ZlibStream z) : 0 < s.avail_out :=
  Nat.sub_pos_of_lt s.room_lt

/-- After a call that returned. -/
def fill (s : ZlibStream z) (state : z.S) (out : Bytes)
    (fits : out.length ≤ s.avail_out) : ZlibStream z where
  zstream := state
  buffs := s.room.1 ++ [s.room.2 ++ out]
  small := by
    intro ivc member
    rcases List.mem_append.mp member with before | here
    · exact s.room_small ivc before
    · have lt := s.room_lt
      rw [List.mem_singleton.mp here, List.length_append]
      unfold avail_out at fits
      omega

@[simp] theorem fill_flatten (s : ZlibStream z) (state : z.S) (out : Bytes)
    (fits : out.length ≤ s.avail_out) :
    (s.fill state out fits).buffs.flatten = s.buffs.flatten ++ out := by
  rw [fill, List.flatten_concat, ← List.append_assoc, room_flatten]

/-- The loop on one region of the input, `input` is what is left of it. -/
def codeLoop (finish : Bool) (input : Bytes) (s : ZlibStream z) :
    Option (ZlibStream z) :=
  match answered : z.call s.zstream input s.avail_out finish with
  | none => none
  | some answer =>
      let next := s.fill answer.state answer.out (z.fits answered)
      if answer.out.length = s.avail_out then codeLoop finish answer.rest next
      else some next
termination_by z.left s.zstream input finish
decreasing_by
  have bounded := z.bounded answered
  have positive := s.avail_out_pos
  simp only [fill]
  omega

/-- Only the last region of the input is given with `finish`. -/
def code (finish : Bool) : List Bytes → ZlibStream z → Option (ZlibStream z)
  | [], s => some s
  | [input], s => codeLoop finish input s
  | input :: rest, s => (codeLoop false input s).bind (code finish rest)

def encode (deflate : Transducer UInt8) := @code deflate

def decode (inflate : Transducer UInt8) := @code inflate

def getByteArray (host : Host) (heap : Nat → UInt8) (s : ZlibStream z) :
    Outcome ByteArray Exception Unit :=
  (do
    s.buffs.forM ByteArray.write
    ByteArray.setPosition 0 : Method Unit)
    (ByteArray.new host.byteOrder heap defaultBaseSize)

/-- The bytes of each of the regions that `getReadBuffers` hands out. -/
def regions (nodes : List Node) (buffers : List WSABUF) : List Bytes :=
  buffers.map fun buffer => gather nodes [buffer]

/-- `write(ba, -1)`, `flush()` and `getByteArray()` with `coder` for `encode` or
`decode`. The array is not empty, and what `getReadBuffers` and `getByteArray`
would throw is a `writeError` here. -/
def result (coder : Bool → List Bytes → ZlibStream z → Option (ZlibStream z))
    (host : Host) (heap : Nat → UInt8) (ba : ByteArray) : ZlibResult :=
  match ByteArray.getReadBuffers (2 ^ 64 - 1) ba with
  | .done (buffers, _) ba =>
      match coder false (regions ba.root buffers) (create z) with
      | none => .writeError
      | some s =>
          match coder true [[]] s with
          | none => .flushError
          | some s =>
              match s.getByteArray host heap with
              | .done _ ba => .done ba
              | _ => .writeError
  | _ => .writeError

def gzip (deflate inflate : Transducer UInt8) (host : Host)
    (heap : Nat → UInt8) : Gzip
  | true => result (encode deflate) host heap
  | false => result (decode inflate) host heap

theorem codeLoop_of_call {finish : Bool} {input : Bytes} {s : ZlibStream z}
    {answer : Answer z.S UInt8}
    (answered : z.call s.zstream input s.avail_out finish = some answer) :
    codeLoop finish input s =
      if answer.out.length = s.avail_out then
        codeLoop finish answer.rest
          (s.fill answer.state answer.out (z.fits answered))
      else some (s.fill answer.state answer.out (z.fits answered)) := by
  rw [codeLoop]
  split
  · rename_i refused
    rw [answered] at refused
    cases refused
  · rename_i also here
    rw [answered] at here
    cases here
    rfl

theorem call_of_codeLoop {finish : Bool} {input : Bytes} {s after : ZlibStream z}
    (looped : codeLoop finish input s = some after) :
    ∃ answer, z.call s.zstream input s.avail_out finish = some answer := by
  rw [codeLoop] at looped
  split at looped
  · cases looped
  · exact ⟨_, ‹_›⟩

/-- The regions of a payload that starts with a node. -/
def chunks (base : Nat) (payload : Bytes) : List Bytes :=
  if base = 0 ∨ payload.length ≤ base then [payload]
  else payload.take base :: chunks base (payload.drop base)
termination_by payload.length
decreasing_by
  rw [List.length_drop]
  omega

/-- What a `ZlibStream` makes of a payload. -/
def compress (deflate : Transducer UInt8) (payload : Bytes) : Option Bytes :=
  ((code false (chunks defaultBaseSize payload) (create deflate)).bind
    (code true [[]])).map fun s => s.buffs.flatten

/-! What a stream has been fed and has given. -/

section Sessions

variable {s after : ZlibStream z} {source fed input : Bytes} {ended : Bool}

theorem session_call {finish : Bool} {answer : Answer z.S UInt8} {used : Bytes}
    (session : z.Session fed s.buffs.flatten ended s.zstream)
    (order : ended = true → finish = true) (idle : finish = true → input = [])
    (answered : z.call s.zstream input s.avail_out finish = some answer)
    (taken : used ++ answer.rest = input) :
    z.Session (fed ++ used)
      (s.fill answer.state answer.out (z.fits answered)).buffs.flatten finish
      (s.fill answer.state answer.out (z.fits answered)).zstream := by
  rw [fill_flatten]
  exact .call session order idle answered taken

theorem codeLoop_more (exhausts : z.Exhausts source)
    (session : z.Session fed s.buffs.flatten false s.zstream)
    (within : fed ++ input <+: source)
    (looped : codeLoop false input s = some after) :
    z.Session (fed ++ input) after.buffs.flatten false after.zstream := by
  induction bound : z.left s.zstream input false using Nat.strong_induction_on
    generalizing s fed input with
  | _ bound ih =>
      obtain ⟨answer, answered⟩ := call_of_codeLoop looped
      obtain ⟨used, taken⟩ := z.suffix answered
      have next := session_call session id (by simp) answered taken
      have whole : fed ++ used ++ answer.rest = fed ++ input := by
        rw [List.append_assoc, taken]
      rw [codeLoop_of_call answered] at looped
      split at looped
      · rename_i full
        have bounded := z.bounded answered
        have positive := s.avail_out_pos
        have rest := ih _ (by simp only [fill]; omega) next (whole ▸ within) looped rfl
        rwa [whole] at rest
      · rename_i partly
        cases looped
        have fits := z.fits answered
        rw [exhausts session within answered (by omega), List.append_nil] at whole
        rwa [whole] at next

theorem codeLoop_last (session : z.Session source s.buffs.flatten ended s.zstream)
    (looped : codeLoop true [] s = some after) :
    z.Ended source after.buffs.flatten := by
  induction bound : z.left s.zstream [] true using Nat.strong_induction_on
    generalizing s ended with
  | _ bound ih =>
      obtain ⟨answer, answered⟩ := call_of_codeLoop looped
      have none := List.suffix_nil.mp (z.suffix answered)
      have next := session_call session (fun _ => rfl) (fun _ => rfl) answered
        (show [] ++ answer.rest = [] from none)
      rw [List.append_nil] at next
      rw [codeLoop_of_call answered, none] at looped
      split at looped
      · rename_i full
        have bounded := z.bounded answered
        have positive := s.avail_out_pos
        rw [none] at bounded
        exact ih _ (by simp only [fill]; omega) next looped rfl
      · rename_i partly
        cases looped
        have fits := z.fits answered
        exact ⟨_, _, _, _, _, session, answered, by omega, fill_flatten ..⟩

theorem codeLoop_returns {target : Bytes} {finish : Bool}
    (converts : z.Converts source target)
    (session : z.Session fed s.buffs.flatten ended s.zstream)
    (within : fed ++ input <+: source) (order : ended = true → finish = true)
    (last : finish = true → input = [] ∧ fed = source) :
    ∃ after, codeLoop finish input s = some after := by
  induction bound : z.left s.zstream input finish using Nat.strong_induction_on
    generalizing s fed input ended with
  | _ bound ih =>
      obtain ⟨answer, answered⟩ :=
        converts.answers session within order last s.avail_out_pos
      obtain ⟨used, taken⟩ := z.suffix answered
      have next := session_call session order (fun ends => (last ends).1) answered taken
      rw [codeLoop_of_call answered]
      split
      · rename_i full
        have bounded := z.bounded answered
        have positive := s.avail_out_pos
        refine ih _ (by simp only [fill]; omega) next ?_ id ?_ rfl
        · rwa [List.append_assoc, taken]
        · intro ends
          obtain ⟨rfl, rfl⟩ := last ends
          obtain ⟨rfl, none⟩ := List.append_eq_nil_iff.mp taken
          exact ⟨none, List.append_nil fed⟩
      · exact ⟨_, rfl⟩

theorem code_cons (input : Bytes) (rest : List Bytes) (s : ZlibStream z) :
    code false (input :: rest) s =
      (codeLoop false input s).bind (code false rest) := by
  cases rest with
  | nil => exact (Option.bind_fun_some _).symm
  | cons => rfl

theorem code_more {v : List Bytes} (exhausts : z.Exhausts source)
    (session : z.Session fed s.buffs.flatten false s.zstream)
    (within : fed ++ v.flatten <+: source) (coded : code false v s = some after) :
    z.Session (fed ++ v.flatten) after.buffs.flatten false after.zstream := by
  induction v generalizing s fed with
  | nil =>
      cases coded
      rwa [List.flatten_nil, List.append_nil]
  | cons input rest ih =>
      rw [List.flatten_cons, ← List.append_assoc] at within ⊢
      rw [code_cons] at coded
      obtain ⟨middle, looped, coded⟩ := Option.bind_eq_some_iff.mp coded
      have next := codeLoop_more exhausts session
        ((List.prefix_append _ _).trans within) looped
      exact ih next within coded

theorem code_returns {v : List Bytes} {target : Bytes}
    (converts : z.Converts source target)
    (session : z.Session fed s.buffs.flatten false s.zstream)
    (within : fed ++ v.flatten <+: source) :
    ∃ after, code false v s = some after := by
  induction v generalizing s fed with
  | nil => exact ⟨s, rfl⟩
  | cons input rest ih =>
      rw [List.flatten_cons, ← List.append_assoc] at within
      have first := (List.prefix_append _ _).trans within
      obtain ⟨middle, looped⟩ := @codeLoop_returns _ _ _ _ _ _ _ false converts
        session first id (by simp)
      have next := codeLoop_more converts.exhausts session first looped
      obtain ⟨after, coded⟩ := ih next within
      exact ⟨after, by rw [code_cons, looped, Option.bind_some, coded]⟩

/-- `write` and `flush`. -/
theorem flushed_ended {v : List Bytes} (exhausts : z.Exhausts v.flatten)
    (coded : (code false v (create z)).bind (code true [[]]) = some after) :
    z.Ended v.flatten after.buffs.flatten := by
  obtain ⟨middle, coded, looped⟩ := Option.bind_eq_some_iff.mp coded
  exact codeLoop_last (code_more exhausts .start (List.prefix_refl _) coded) looped

theorem flushed_converts {v : List Bytes} {target : Bytes}
    (converts : z.Converts v.flatten target) :
    ∃ middle after, code false v (create z) = some middle ∧
      code true [[]] middle = some after ∧ after.buffs.flatten = target := by
  obtain ⟨middle, coded⟩ := code_returns converts
    (show z.Session [] (create z).buffs.flatten false (create z).zstream from .start)
    (List.prefix_refl _)
  have session : z.Session v.flatten middle.buffs.flatten false middle.zstream :=
    code_more converts.exhausts .start (List.prefix_refl _) coded
  obtain ⟨after, looped⟩ := @codeLoop_returns _ _ _ _ [] _ _ true converts session
    ⟨[], by simp only [List.append_nil]⟩ (fun _ => rfl)
    (fun _ => ⟨rfl, rfl⟩)
  exact ⟨middle, after, coded, looped,
    converts.complete (codeLoop_last session looped)⟩

end Sessions

/-! The arrays on both sides of a stream. -/

section Arrays

variable {s : ZlibStream z} {host : Host} {heap : Nat → UInt8} {ba : ByteArray}
  {payload : Bytes}

theorem forM_write (order : Endian) (buffs : List Bytes) :
    ByteArray.Appends order (buffs.forM ByteArray.write) buffs.flatten ⟨⟩ := by
  induction buffs with
  | nil => exact .pure _
  | cons ivc rest ih =>
      rw [List.flatten_cons]
      exact ByteArray.Appends.bind (.write ivc) ih

theorem getByteArray_spec (host : Host) (heap : Nat → UInt8) (s : ZlibStream z) :
    ∃ ba, s.getByteArray host heap = .done () ba ∧
      ByteArray.Cursor host.byteOrder
        (max defaultBaseSize
          (ByteArray.roundUp defaultBaseSize s.buffs.flatten.length)) 0
        s.buffs.flatten ba := by
  obtain ⟨after, written, appended⟩ := forM_write host.byteOrder s.buffs
    (ByteArray.inv_new host.byteOrder heap (show 1 ≤ defaultBaseSize by decide))
    rfl rfl
  refine ⟨after.moveTo 0, ?_, RockMessageDecoder.received_spec appended⟩
  exact (Prog.bind_done written).trans
    (ByteArray.setPosition_spec appended.inv (Nat.zero_le _))

theorem regions_flatten (nodes : List Node) (buffers : List WSABUF) :
    (regions nodes buffers).flatten = gather nodes buffers := by
  simp [regions, gather, List.flatMap]

/-- With `length` -1 everything that is unread is handed out. -/
theorem getReadBuffers_all (inv : ba.Inv) (positive : 0 < ba.getReadSize)
    (small : ba.getReadSize < 2 ^ 64 - 1)
    (narrow : Narrow ba.baseSize (ba.position % ba.baseSize) ba.getReadSize) :
    ∃ buffers, ByteArray.getReadBuffers (2 ^ 64 - 1) ba =
        .done (buffers, ba.getReadSize) ba ∧
      (regions ba.root buffers).flatten = ba.unread := by
  obtain ⟨buffers, reserved, regions⟩ :=
    ByteArray.getReadBuffers_regions inv positive (Nat.le_refl _) narrow
  refine ⟨buffers, ?_, ?_⟩
  · rw [← reserved]
    unfold ByteArray.getReadBuffers
    rw [if_pos small, if_neg (Nat.lt_irrefl _)]
  · rw [regions_flatten, gather_spec inv.uniform regions, ba.unread_eq]
    rfl

theorem chunks_flatten (base : Nat) (payload : Bytes) :
    (chunks base payload).flatten = payload := by
  induction payload using chunks.induct base with
  | case1 payload last =>
      rw [chunks, if_pos last, List.flatten_singleton]
  | case2 payload more ih =>
      rw [chunks, if_neg more, List.flatten_cons, ih, List.take_append_drop]

theorem regions_chunks {base len : Nat} {before nodes : List Node}
    {buffers : List WSABUF} (uniform : Uniform base nodes) (positive : 0 < base)
    (small : base < 2 ^ 32) (fits : len ≤ base * nodes.length)
    (looped : buffersLoop nodes before.length 0 len = some buffers) :
    regions (before ++ nodes) buffers = chunks base ((memory nodes).take len) := by
  induction nodes generalizing before len buffers with
  | nil => cases looped
  | cons node rest ih =>
      have size : node.ptr.length = base := uniform.head_ptr
      have here : ∀ n, gather (before ++ node :: rest) [⟨before.length, 0, n⟩] =
          node.ptr.take n := by
        intro n
        simp [gather, Node.load]
      have length : ((memory (node :: rest)).take len).length = len := by
        rw [List.length_take, uniform.memory_length]
        exact Nat.min_eq_left fits
      simp only [buffersLoop, show node.size = base from uniform.head] at looped
      rw [chunks, length, memory_cons]
      split at looped
      · rename_i last
        cases looped
        rw [if_pos (.inr (by omega)), Nat.mod_eq_of_lt (by omega),
          List.take_append_of_le_length (by omega)]
        exact congrArg (· :: []) (here len)
      · rename_i more
        obtain ⟨tail, further, rfl⟩ := Option.map_eq_some_iff.mp looped
        rw [List.length_cons, Nat.mul_succ] at fits
        have others := @ih (len - (base - 0)) (before ++ [node]) tail uniform.tail
          (by omega) (by rw [List.length_append]; exact further)
        rw [if_neg (by omega), Nat.mod_eq_of_lt (show base - 0 < 2 ^ 32 by omega),
          List.take_take, Nat.min_eq_left (by omega), List.drop_take,
          List.drop_left' size, List.take_left' size]
        rw [List.append_assoc] at others
        refine List.cons_eq_cons.mpr ⟨(here (base - 0)).trans ?_, others⟩
        exact List.take_of_length_le (by omega)

theorem getReadBuffers_chunks (inv : ba.Inv) (positive : 0 < ba.size)
    (small : ba.size < 2 ^ 64 - 1) (base : ba.baseSize = defaultBaseSize) :
    ∃ buffers, ByteArray.getReadBuffers (2 ^ 64 - 1) (ba.moveTo 0) =
        .done (buffers, ba.size) (ba.moveTo 0) ∧
      regions ba.root buffers = chunks defaultBaseSize ba.content := by
  have start : (ba.moveTo 0).Inv := inv.moveTo (Nat.zero_le _)
  have size : (ba.moveTo 0).getReadSize = ba.size := by
    rw [ByteArray.getReadSize, ByteArray.moveTo_zero_size]
    rfl
  have least : ba.baseSize < 2 ^ 32 := base ▸ by decide
  obtain ⟨buffers, reserved, -⟩ := getReadBuffers_all start (by omega) (by omega)
    (narrow_of_base least)
  rw [size] at reserved
  refine ⟨buffers, reserved, ?_⟩
  have within := inv.size_le
  rw [inv.capacity_eq] at within
  have looped : buffersLoop ba.root 0 0 ba.size = some buffers := by
    have current : (ba.moveTo 0).cur = some 0 := by
      rw [start.cursor, ByteArray.nodeAt]
      change (if 0 / ba.baseSize < ba.root.length then some (0 / ba.baseSize)
        else none) = some 0
      rw [Nat.zero_div, if_pos (List.length_pos_iff.mpr inv.root_present)]
    have nodes : (ba.moveTo 0).nodesFrom = ba.root := by
      rw [start.nodesFrom_eq]
      change ba.root.drop (0 / ba.baseSize) = ba.root
      rw [Nat.zero_div, List.drop_zero]
    have column : (ba.moveTo 0).position % (ba.moveTo 0).baseSize = 0 :=
      Nat.zero_mod _
    simp only [ByteArray.getReadBuffers, current, nodes, size, column] at reserved
    rw [if_pos small, if_neg (show ¬ba.size = 0 by omega)] at reserved
    split at reserved
    · cases reserved
    · rename_i found looped
      rw [looped]
      injection reserved with values
      exact congrArg some (Prod.mk.inj values).1
  rw [ByteArray.content, ← base]
  exact @regions_chunks _ _ [] _ _ inv.uniform inv.base_pos least within looped

/-- The array of a payload becomes what `compress` says, in either direction. -/
theorem result_code (z : Transducer UInt8) (host : Host) (heap : Nat → UInt8)
    (inv : ba.Inv) (positive : 0 < ba.size) (small : ba.size < 2 ^ 64 - 1)
    (base : ba.baseSize = defaultBaseSize) :
    (∃ target after, compress z ba.content = some target ∧
      result (@code z) host heap (ba.moveTo 0) = .done after ∧
      ByteArray.Cursor host.byteOrder
        (max defaultBaseSize (ByteArray.roundUp defaultBaseSize target.length)) 0
        target after) ∨
    (compress z ba.content = none ∧
      (result (@code z) host heap (ba.moveTo 0) = .writeError ∨
        result (@code z) host heap (ba.moveTo 0) = .flushError)) := by
  obtain ⟨buffers, reserved, regions⟩ := getReadBuffers_chunks inv positive small base
  rw [result, reserved]
  simp only [show (ba.moveTo 0).root = ba.root from rfl, regions, compress]
  cases code false (chunks defaultBaseSize ba.content) (create z) with
  | none => exact .inr ⟨rfl, .inl rfl⟩
  | some middle =>
      simp only [Option.bind_some]
      cases code true [[]] middle with
      | none => exact .inr ⟨rfl, .inr rfl⟩
      | some s =>
          obtain ⟨after, made, cursor⟩ := getByteArray_spec host heap s
          simp only [made]
          exact .inl ⟨_, after, rfl, rfl, cursor⟩

/-- Whatever array comes out of a stream was made by `getByteArray`. -/
theorem result_made
    {coder : Bool → List Bytes → ZlibStream z → Option (ZlibStream z)}
    {after : ByteArray} (made : result coder host heap ba = .done after) :
    ∃ capacity target, ByteArray.Cursor host.byteOrder capacity 0 target after := by
  unfold result at made
  split at made
  · split at made
    · cases made
    · split at made
      · cases made
      · rename_i s flushed
        obtain ⟨built, done, cursor⟩ := getByteArray_spec host heap s
        rw [done] at made
        cases made
        exact ⟨_, _, cursor⟩
  · cases made

theorem compress_ended {deflate : Transducer UInt8} {compressed : Bytes}
    (exhausts : deflate.Exhausts payload)
    (made : compress deflate payload = some compressed) :
    deflate.Ended payload compressed := by
  obtain ⟨s, coded, rfl⟩ := Option.map_eq_some_iff.mp made
  have ended := flushed_ended
    (show deflate.Exhausts (chunks defaultBaseSize payload).flatten by
      rwa [chunks_flatten]) coded
  rwa [chunks_flatten] at ended

theorem compress_converts {deflate : Transducer UInt8} {compressed : Bytes}
    (converts : deflate.Converts payload compressed) :
    compress deflate payload = some compressed := by
  obtain ⟨middle, after, coded, flushed, rfl⟩ :=
    flushed_converts (show deflate.Converts (chunks defaultBaseSize payload).flatten
      compressed by rwa [chunks_flatten])
  rw [compress, coded, Option.bind_some, flushed]
  rfl

theorem result_decode {inflate : Transducer UInt8} {compressed : Bytes}
    (converts : inflate.Converts compressed payload) (host : Host)
    (heap : Nat → UInt8) (inv : ba.Inv) (unread : ba.unread = compressed)
    (positive : 0 < compressed.length) (small : compressed.length < 2 ^ 32) :
    ∃ after, result (decode inflate) host heap ba = .done after ∧
      ByteArray.Cursor host.byteOrder
        (max defaultBaseSize
          (ByteArray.roundUp defaultBaseSize payload.length)) 0
        payload after := by
  have length := inv.unread_length
  rw [unread] at length
  obtain ⟨buffers, reserved, whole⟩ := getReadBuffers_all inv (by omega) (by omega)
    (narrow_of_len (by omega))
  obtain ⟨middle, s, coded, flushed, rfl⟩ :=
    flushed_converts (show inflate.Converts (regions ba.root buffers).flatten payload by
      rwa [whole, unread])
  obtain ⟨after, made, cursor⟩ := getByteArray_spec host heap s
  refine ⟨after, ?_, cursor⟩
  rw [result, reserved]
  simp only [decode, coded, flushed, made]

end Arrays

end ZlibStream

end Sylar
