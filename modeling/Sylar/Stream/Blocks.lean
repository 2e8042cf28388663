import Sylar.Data.Blocks
import Sylar.Stream.Zlib

namespace Sylar

open Logic Data

/-! `ZlibStream` with any `m_buffSize`, over one direction of zlib with what its
calls return. -/

/-- What `deflate` and `inflate` return. -/
inductive Ret
  | Z_OK
  | Z_STREAM_END
  | Z_NEED_DICT
  | Z_DATA_ERROR
  | Z_MEM_ERROR
  | Z_BUF_ERROR
  | Z_STREAM_ERROR
  deriving DecidableEq, Repr

/-- After a call: what is left of the input, and what was written. -/
structure Reply (S : Type) where
  ret : Ret
  state : S
  rest : Bytes
  out : Bytes

/-- `call state input avail_out finish`, for blocks of `size` bytes. -/
structure Zlib (size : Nat) where
  S : Type
  init : S
  call : S → Bytes → Nat → Bool → Reply S
  fits : ∀ state input avail finish,
    (call state input avail finish).out.length ≤ avail
  /-- a bound on the calls in a row that leave no room -/
  left : S → Bytes → Bool → Nat
  settles : ∀ {state input avail finish}, 0 < avail → avail ≤ size →
    (call state input avail finish).out.length = avail →
    left (call state input avail finish).state
        (call state input avail finish).rest finish <
      left state input finish
  positive : 0 < size

namespace Zlib

/-- What a call returned and wrote. -/
structure Call where
  ret : Ret
  out : Bytes
  deriving DecidableEq, Repr

/-- `buffs` are the bytes of each region up to its `len`; `calls` is what zlib did
so far. -/
structure Stream {size : Nat} (z : Zlib size) where
  zstream : z.S
  buffs : Blocks UInt8 size
  calls : List Call

namespace Stream

variable {size : Nat} {z : Zlib size}

def create (z : Zlib size) : Stream z := ⟨z.init, .empty, []⟩

/-- The next call. -/
def reply (s : Stream z) (finish : Bool) (input : Bytes) : Reply z.S :=
  z.call s.zstream input s.buffs.avail finish

theorem reply_fits (s : Stream z) (finish : Bool) (input : Bytes) :
    (s.reply finish input).out.length ≤ s.buffs.avail := z.fits ..

/-- After the next call. -/
def called (s : Stream z) (finish : Bool) (input : Bytes) : Stream z where
  zstream := (s.reply finish input).state
  buffs := s.buffs.fill _ (s.reply_fits finish input)
  calls := s.calls ++ [⟨(s.reply finish input).ret, (s.reply finish input).out⟩]

/-- After a call that was refused; `len` is as it was. -/
def refused (s : Stream z) (finish : Bool) (input : Bytes) : Stream z where
  zstream := (s.reply finish input).state
  buffs := s.buffs.fill [] (Nat.zero_le _)
  calls := s.calls ++ [⟨(s.reply finish input).ret, (s.reply finish input).out⟩]

/-- The loop on one region of the input, `input` is what is left of it. -/
def codeLoop (finish : Bool) (input : Bytes) (s : Stream z) : Ret × Stream z :=
  if (s.reply finish input).ret = .Z_STREAM_ERROR then
    (.Z_STREAM_ERROR, s.refused finish input)
  else if (s.reply finish input).out.length = s.buffs.avail then
    codeLoop finish (s.reply finish input).rest (s.called finish input)
  else (.Z_OK, s.called finish input)
termination_by z.left s.zstream input finish
decreasing_by
  exact z.settles (s.buffs.avail_pos z.positive) s.buffs.avail_le ‹_›

/-- Only the last region of the input is given with `finish`. -/
def code (finish : Bool) : List Bytes → Stream z → Ret × Stream z
  | [], s => (.Z_OK, s)
  | input :: rest, s =>
      match codeLoop (finish && rest.isEmpty) input s with
      | (.Z_OK, s) => code finish rest s
      | (ret, s) => (ret, s)

def encode {deflate : Zlib size} := @code size deflate

def decode {inflate : Zlib size} := @code size inflate

/-- `write` on one array of regions after another and `flush`, with what each of
them returns. -/
def session (coder : Bool → List Bytes → Stream z → Ret × Stream z) :
    List (List Bytes) → Stream z → List Ret × Stream z
  | [], s =>
      let (ret, s) := coder true [[]] s
      ([ret], s)
  | v :: rest, s =>
      let (ret, s) := coder false v s
      let (rets, s) := session coder rest s
      (ret :: rets, s)

def getResult (s : Stream z) : Bytes := s.buffs.blocks.flatten

def getByteArray (host : Host) (heap : Nat → UInt8) (s : Stream z) :
    Outcome ByteArray Exception Unit :=
  (do
    s.buffs.blocks.forM ByteArray.write
    ByteArray.setPosition 0 : Method Unit)
    (ByteArray.new host.byteOrder heap defaultBaseSize)

/-- The blocks have what zlib wrote. -/
structure Assembled (host : Host) (heap : Nat → UInt8) (s : Stream z) : Prop where
  full : ∀ ivc ∈ s.buffs.blocks.dropLast, ivc.length = size
  small : ∀ ivc ∈ s.buffs.blocks, ivc.length ≤ size
  result : s.getResult = s.calls.flatMap Call.out
  array : ∃ ba, s.getByteArray host heap = .done () ba ∧ ba.position = 0 ∧
    ba.unread = s.calls.flatMap Call.out

def Accepted (s : Stream z) : Prop := ∀ call ∈ s.calls, call.ret ≠ .Z_STREAM_ERROR

end Stream

/-- What a call adds to the contents; one that was refused adds nothing. -/
def Call.given (call : Call) : Bytes :=
  if call.ret = .Z_STREAM_ERROR then [] else call.out

namespace Stream

variable {size : Nat} {z : Zlib size}

def Holds (s : Stream z) : Prop := s.buffs.contents = s.calls.flatMap Call.given

theorem Holds.create (z : Zlib size) : (create z).Holds := rfl

theorem Holds.refused {s : Stream z} (holds : s.Holds) {finish : Bool}
    {input : Bytes} (error : (s.reply finish input).ret = .Z_STREAM_ERROR) :
    (s.refused finish input).Holds := by
  unfold Holds Stream.refused
  rw [Blocks.fill_contents, holds, List.flatMap_append]
  simp [Call.given, error]

theorem Holds.called {s : Stream z} (holds : s.Holds) {finish : Bool}
    {input : Bytes} (accepted : (s.reply finish input).ret ≠ .Z_STREAM_ERROR) :
    (s.called finish input).Holds := by
  unfold Holds Stream.called
  rw [Blocks.fill_contents, holds, List.flatMap_append]
  simp [Call.given, accepted]

theorem Holds.codeLoop {s : Stream z} (holds : s.Holds) (finish : Bool)
    (input : Bytes) : (codeLoop finish input s).2.Holds := by
  fun_induction Stream.codeLoop finish input s with
  | case1 input s error => exact holds.refused error
  | case2 input s accepted full ih => exact ih (holds.called accepted)
  | case3 input s accepted partly => exact holds.called accepted

theorem Holds.code {s : Stream z} (holds : s.Holds) (finish : Bool)
    (v : List Bytes) : (code finish v s).2.Holds := by
  induction v generalizing s with
  | nil => exact holds
  | cons input rest ih =>
      have looped := holds.codeLoop (finish && rest.isEmpty) input
      unfold Stream.code
      split
      · rename_i next same
        rw [same] at looped
        exact ih looped
      · rename_i ret next _ same
        rw [same] at looped
        exact looped

theorem Holds.session {s : Stream z} (holds : s.Holds)
    (writes : List (List Bytes)) :
    (Stream.session Stream.code writes s).2.Holds := by
  induction writes generalizing s with
  | nil => exact holds.code true [[]]
  | cons v rest ih => exact ih (holds.code false v)

theorem getByteArray_spec (host : Host) (heap : Nat → UInt8) (s : Stream z) :
    ∃ ba, s.getByteArray host heap = .done () ba ∧
      ByteArray.Cursor host.byteOrder
        (max defaultBaseSize
          (ByteArray.roundUp defaultBaseSize s.getResult.length)) 0
        s.getResult ba := by
  obtain ⟨after, written, appended⟩ := ZlibStream.forM_write host.byteOrder
    s.buffs.blocks
    (ByteArray.inv_new host.byteOrder heap (show 1 ≤ defaultBaseSize by decide))
    rfl rfl
  refine ⟨after.moveTo 0, ?_, RockMessageDecoder.received_spec appended⟩
  exact (Prog.bind_done written).trans
    (ByteArray.setPosition_spec appended.inv (Nat.zero_le _))

theorem Holds.assembled {s : Stream z} (holds : s.Holds) (accepted : s.Accepted)
    (host : Host) (heap : Nat → UInt8) : s.Assembled host heap := by
  have given : s.calls.flatMap Call.given = s.calls.flatMap Call.out := by
    refine List.flatMap_congr ?_
    intro call member
    exact if_neg (accepted call member)
  have result : s.getResult = s.calls.flatMap Call.out := holds.trans given
  obtain ⟨ba, made, cursor⟩ := getByteArray_spec host heap s
  rw [result] at cursor
  exact ⟨s.buffs.full, s.buffs.small, result, ba, made, cursor.position,
    cursor.unread⟩

/-- Whatever zlib does, the blocks of a stream are full up to the last, and
together are what all the calls wrote. -/
theorem output_assembled (z : Zlib size) (writes : List (List Bytes))
    (host : Host) (heap : Nat → UInt8) :
    ((session encode writes (create z)).2.Accepted →
      (session encode writes (create z)).2.Assembled host heap) ∧
    ((session decode writes (create z)).2.Accepted →
      (session decode writes (create z)).2.Assembled host heap) :=
  ⟨fun accepted => ((Holds.create z).session writes).assembled accepted host heap,
    fun accepted => ((Holds.create z).session writes).assembled accepted host heap⟩

end Stream

/-! The machine that refuses calls or answers them is zlib with two of its
codes, and the stream over it is the one with blocks of `buffSize`. -/

def ofTransducer (z : Transducer UInt8) : Zlib buffSize where
  S := z.S
  init := z.init
  call state input avail finish :=
    match z.call state input avail finish with
    | none => ⟨.Z_STREAM_ERROR, state, input, []⟩
    | some answer => ⟨.Z_OK, answer.state, answer.rest, answer.out⟩
  fits := by
    intro state input avail finish
    split
    · exact Nat.zero_le _
    · exact z.fits ‹_›
  left := z.left
  settles := by
    intro state input avail finish positive _ full
    cases answered : z.call state input avail finish with
    | none =>
        rw [answered] at full
        exact absurd full (Nat.ne_of_lt positive)
    | some answer =>
        rw [answered] at full
        have bounded := z.bounded answered
        simp only at full ⊢
        omega
  positive := by decide

/-- The two streams are in the same state. -/
structure Matches {z : Transducer UInt8} (s : ZlibStream z)
    (t : Stream (ofTransducer z)) : Prop where
  zstream : t.zstream = s.zstream
  buffs : t.buffs.blocks = s.buffs

/-- What `code` returns is `Z_OK` where the other stream goes on. -/
def Agrees {z : Transducer UInt8} :
    Option (ZlibStream z) → Ret × Stream (ofTransducer z) → Prop
  | some after, (ret, next) => ret = .Z_OK ∧ Matches after next
  | none, (ret, _) => ret = .Z_STREAM_ERROR

section Agreement

variable {z : Transducer UInt8} {s : ZlibStream z} {t : Stream (ofTransducer z)}

theorem Matches.room (same : Matches s t) : t.buffs.room = s.room := by
  unfold Blocks.room ZlibStream.room
  rw [same.buffs]
  cases s.buffs.getLast? <;> rfl

theorem Matches.avail (same : Matches s t) : t.buffs.avail = s.avail_out := by
  rw [Blocks.avail, ZlibStream.avail_out, same.room]

theorem Matches.reply (same : Matches s t) {finish : Bool} {input : Bytes}
    {answer : Answer z.S UInt8}
    (answered : z.call s.zstream input s.avail_out finish = some answer) :
    t.reply finish input = ⟨.Z_OK, answer.state, answer.rest, answer.out⟩ := by
  simp only [Stream.reply, ofTransducer, same.zstream, same.avail, answered]

theorem Matches.called (same : Matches s t) {finish : Bool} {input : Bytes}
    {answer : Answer z.S UInt8}
    (answered : z.call s.zstream input s.avail_out finish = some answer) :
    Matches (s.fill answer.state answer.out (z.fits answered))
      (t.called finish input) := by
  have reply := same.reply answered
  constructor
  · exact congrArg Reply.state reply
  · simp only [Stream.called, ZlibStream.fill, Blocks.fill, reply, same.room]

theorem Matches.codeLoop (same : Matches s t) (finish : Bool) (input : Bytes) :
    Agrees (ZlibStream.codeLoop finish input s)
      (Stream.codeLoop finish input t) := by
  fun_induction ZlibStream.codeLoop finish input s generalizing t with
  | case1 input s refused =>
      have error : (t.reply finish input).ret = .Z_STREAM_ERROR := by
        simp only [Stream.reply, ofTransducer, same.zstream, same.avail, refused]
      rw [Stream.codeLoop, if_pos error]
      rfl
  | case2 =>
      rename_i input s answer answered next full ih
      have reply := same.reply answered
      rw [Stream.codeLoop, if_neg (by simp [reply]),
        if_pos (by rw [reply, same.avail]; exact full), reply]
      exact ih (same.called answered)
  | case3 =>
      rename_i input s answer answered next partly
      have reply := same.reply answered
      rw [Stream.codeLoop, if_neg (by simp [reply]),
        if_neg (by rw [reply, same.avail]; exact partly)]
      exact ⟨rfl, same.called answered⟩

theorem Matches.code (same : Matches s t) (finish : Bool) (v : List Bytes) :
    Agrees (ZlibStream.code finish v s) (Stream.code finish v t) := by
  induction v generalizing s t with
  | nil => exact ⟨rfl, same⟩
  | cons input rest ih =>
      have looped := same.codeLoop (finish && rest.isEmpty) input
      have first : ZlibStream.code finish (input :: rest) s =
          (ZlibStream.codeLoop (finish && rest.isEmpty) input s).bind
            (ZlibStream.code finish rest) := by
        cases rest with
        | nil =>
            rw [List.isEmpty_nil, Bool.and_true]
            exact (Option.bind_fun_some _).symm
        | cons =>
            rw [List.isEmpty_cons, Bool.and_false]
            rfl
      rw [first, Stream.code]
      revert looped
      cases ZlibStream.codeLoop (finish && rest.isEmpty) input s with
      | none =>
          intro error
          generalize Stream.codeLoop (finish && rest.isEmpty) input t = next at error
          obtain ⟨ret, next⟩ := next
          obtain rfl : ret = .Z_STREAM_ERROR := error
          rfl
      | some after =>
          rintro ⟨ok, later⟩
          generalize Stream.codeLoop (finish && rest.isEmpty) input t = next at ok later
          obtain ⟨ret, next⟩ := next
          obtain rfl : ret = .Z_OK := ok
          exact ih later

/-- Both streams refuse the same writes, and else have the same regions. -/
theorem code_ofTransducer (z : Transducer UInt8) (finish : Bool)
    (v : List Bytes) :
    Agrees (ZlibStream.code finish v (.create z))
      (Stream.code finish v (.create (ofTransducer z))) :=
  Matches.code ⟨rfl, rfl⟩ finish v

end Agreement

/-- Zlib on one input: when it has all of `source`, and if `patient` is told to
finish, it gives `target`, and returns `verdict` with the last of it and `later`
after that. -/
def whole (patient : Bool) (source target : Bytes) (verdict later : Ret)
    {size : Nat} (positive : 0 < size) : Zlib size where
  S := Bytes × Option Bytes
  init := ([], none)
  call
    | (fed, none), input, avail, finish =>
        if fed ++ input = source ∧ (!patient || finish) then
          ⟨if target.length ≤ avail then verdict else .Z_OK,
            ([], some (target.drop avail)), [], target.take avail⟩
        else ⟨if input.isEmpty then .Z_BUF_ERROR else .Z_OK,
          (fed ++ input, none), [], []⟩
    | (_, some []), input, _, _ => ⟨later, ([], some []), input, []⟩
    | (_, some rest), input, avail, _ =>
        ⟨if rest.length ≤ avail then verdict else .Z_OK,
          ([], some (rest.drop avail)), input, rest.take avail⟩
  fits := by
    intro state input avail finish
    split
    · split
      · exact List.length_take_le _ _
      · exact Nat.zero_le _
    · exact Nat.zero_le _
    · exact List.length_take_le _ _
  left state _ _ := (state.2.getD target).length
  settles := by
    intro state input avail finish positive _ full
    split at full
    · split at full
      · rename_i complete
        rw [if_pos complete]
        simp only [Option.getD_some, Option.getD_none, List.length_drop]
        rw [List.length_take] at full
        omega
      · exact absurd full.symm (by simp; omega)
    · exact absurd full.symm (by simp; omega)
    · simp only [Option.getD_some, List.length_drop]
      rw [List.length_take] at full
      omega
  positive := positive

/-- Ten equal bytes and their deflate form, in blocks of ten. -/
def plain : Bytes := List.replicate 10 97

def packed : Bytes := [75, 76, 132, 1, 0]

def deflate : Zlib 10 :=
  whole true plain packed .Z_STREAM_END .Z_STREAM_END (by decide)

def inflate : Zlib 10 :=
  whole false packed plain .Z_STREAM_END .Z_STREAM_END (by decide)

namespace Stream

instance (s : Stream z) : Decidable s.Accepted :=
  inferInstanceAs (Decidable (∀ call ∈ s.calls, _))

/-- The block that the ten bytes fill is followed by an empty one. -/
theorem output_assembled_plain :
    (session encode [[plain]] (create deflate)).2.buffs.blocks = [packed] ∧
    (session encode [[plain]] (create deflate)).2.Assembled
      ⟨.little, .little⟩ (fun _ => 0) ∧
    (session decode [[packed]] (create inflate)).2.buffs.blocks =
      [plain, []] ∧
    (session decode [[packed]] (create inflate)).2.Assembled
      ⟨.little, .little⟩ (fun _ => 0) :=
  ⟨by decide +kernel, (output_assembled deflate [[plain]] _ _).1 (by decide +kernel),
    by decide +kernel, (output_assembled inflate [[packed]] _ _).2 (by decide +kernel)⟩

end Stream

end Zlib

end Sylar
