import Sylar.Rock.Framing
import Sylar.Stream.Blocks

namespace Sylar

open Logic Data

/-! What `parseFrom` is told of the decompression of its payload. -/

namespace Ret

/-- A data, dictionary, memory or stream error. -/
def error : Ret → Bool
  | .Z_DATA_ERROR | .Z_NEED_DICT | .Z_MEM_ERROR | .Z_STREAM_ERROR => true
  | _ => false

end Ret

namespace Zlib

/-- An error, or no end of the compressed stream. -/
def Bad (calls : List Call) : Prop :=
  (∃ call ∈ calls, call.ret.error = true) ∨
    ∀ call ∈ calls, call.ret ≠ .Z_STREAM_END

/-- The only code that `decode` looks at was returned, or there was nothing to
report. -/
def Told (calls : List Call) : Prop :=
  (∃ call ∈ calls, call.ret = .Z_STREAM_ERROR) ∨
    (∀ call ∈ calls, call.ret.error = false) ∧
      ∃ call ∈ calls, call.ret = .Z_STREAM_END

namespace Stream

variable {size : Nat} {z : Zlib size}

/-- `write(ba, -1)`, `flush()` and `getByteArray()` of `parseFrom`, on the regions
of the array. -/
def ungzip (z : Zlib size) (host : Host) (heap : Nat → UInt8) (v : List Bytes) :
    ZlibResult :=
  match decode false v (create z) with
  | (.Z_OK, s) =>
      match decode true [[]] s with
      | (.Z_OK, s) =>
          match s.getByteArray host heap with
          | .done _ ba => .done ba
          | _ => .writeError
      | _ => .flushError
  | _ => .writeError

/-- `CreateGzip(false)` of `parseFrom`. -/
def gunzip (z : Zlib size) (host : Host) (heap : Nat → UInt8) : Gzip :=
  fun _ ba =>
    match ByteArray.getReadBuffers (2 ^ 64 - 1) ba with
    | .done (buffers, _) ba =>
        ungzip z host heap (ZlibStream.regions ba.root buffers)
    | _ => .writeError

/-- What is bad is reported by a `write` or by `flush`. -/
def Reports (session : List Ret × Stream z) : Prop :=
  Bad session.2.calls → ∃ ret ∈ session.1, ret ≠ .Z_OK

/-- What is new in the log has a refused call exactly when that is returned. -/
def Logs (s : Stream z) (rets : List Ret) (after : Stream z) : Prop :=
  ∃ more, after.calls = s.calls ++ more ∧
    ((∃ ret ∈ rets, ret ≠ .Z_OK) ↔
      ∃ call ∈ more, call.ret = .Z_STREAM_ERROR)

theorem codeLoop_logs (finish : Bool) (input : Bytes) (s : Stream z) :
    Logs s [(codeLoop finish input s).1] (codeLoop finish input s).2 := by
  fun_induction codeLoop finish input s with
  | case1 input s error =>
      exact ⟨[⟨_, _⟩], rfl, by simp [error]⟩
  | case2 input s accepted full ih =>
      obtain ⟨more, calls, told⟩ := ih
      refine ⟨⟨(s.reply finish input).ret, (s.reply finish input).out⟩ :: more,
        ?_, ?_⟩
      · rw [calls]
        exact List.append_assoc _ _ _
      · rw [told]
        simp [accepted]
  | case3 input s accepted partly =>
      exact ⟨[⟨_, _⟩], rfl, by simp [accepted]⟩

theorem Logs.trans {s middle after : Stream z} {first rest : List Ret}
    (one : Logs s first middle) (other : Logs middle rest after) :
    Logs s (first ++ rest) after := by
  obtain ⟨more, calls, told⟩ := one
  obtain ⟨others, later, also⟩ := other
  refine ⟨more ++ others, by rw [later, calls, List.append_assoc], ?_⟩
  simp only [List.mem_append, or_and_right, exists_or, told, also]

theorem Logs.ok {s after : Stream z} {rets : List Ret}
    (logs : Logs s (.Z_OK :: rets) after) : Logs s rets after := by
  obtain ⟨more, calls, told⟩ := logs
  exact ⟨more, calls, by simpa using told⟩

theorem code_logs (finish : Bool) (v : List Bytes) (s : Stream z) :
    Logs s [(code finish v s).1] (code finish v s).2 := by
  induction v generalizing s with
  | nil => exact ⟨[], (List.append_nil _).symm, by simp [code]⟩
  | cons input rest ih =>
      have looped := codeLoop_logs (finish && rest.isEmpty) input s
      unfold code
      split
      · rename_i next same
        rw [same] at looped
        exact (looped.trans (ih next)).ok
      · rename_i ret next _ same
        rw [same] at looped
        exact looped

theorem session_logs (writes : List (List Bytes)) (s : Stream z) :
    Logs s (session code writes s).1 (session code writes s).2 := by
  induction writes generalizing s with
  | nil => exact code_logs true [[]] s
  | cons v rest ih => exact (code_logs false v s).trans (ih _)

/-- A write or `flush` fails exactly when a call was refused. -/
theorem session_fails (z : Zlib size) (writes : List (List Bytes)) :
    (∃ ret ∈ (session decode writes (create z)).1, ret ≠ .Z_OK) ↔
      ∃ call ∈ (session decode writes (create z)).2.calls,
        call.ret = .Z_STREAM_ERROR := by
  obtain ⟨more, calls, told⟩ := session_logs writes (create z)
  rw [← List.nil_append more] at told
  rw [show (session decode writes (create z)).2.calls = [] ++ more from calls]
  exact told

/-- `getByteArray` is reached when nothing was returned but `Z_OK`. -/
theorem ungzip_spec (z : Zlib size) (host : Host) (heap : Nat → UInt8)
    (v : List Bytes) :
    (∃ ret ∈ (session decode [v] (create z)).1, ret ≠ .Z_OK) ∧
        (∀ ba, ungzip z host heap v ≠ .done ba) ∨
      (∀ ret ∈ (session decode [v] (create z)).1, ret = .Z_OK) ∧
        ∃ ba, ungzip z host heap v = .done ba ∧
          ByteArray.Cursor host.byteOrder
            (max defaultBaseSize (ByteArray.roundUp defaultBaseSize
              (session decode [v] (create z)).2.getResult.length)) 0
            (session decode [v] (create z)).2.getResult ba := by
  simp only [ungzip, session]
  generalize decode false v (create z) = written
  obtain ⟨ret, s⟩ := written
  cases ret with
  | Z_OK =>
      simp only
      generalize decode true [[]] s = flushed
      obtain ⟨ret, s⟩ := flushed
      cases ret with
      | Z_OK =>
          obtain ⟨ba, made, cursor⟩ := getByteArray_spec host heap s
          simp only [made]
          exact .inr ⟨by simp, ba, rfl, cursor⟩
      | _ => exact .inl ⟨by simp, by simp⟩
  | _ => exact .inl ⟨by simp, by simp⟩

theorem bad_iff (calls : List Call) :
    (Bad calls → ∃ call ∈ calls, call.ret = .Z_STREAM_ERROR) ↔ Told calls := by
  have good : ¬ Bad calls ↔ (∀ call ∈ calls, call.ret.error = false) ∧
      ∃ call ∈ calls, call.ret = .Z_STREAM_END := by
    simp [Bad, not_or]
  rw [Told, ← good, imp_iff_or_not]

/-- What is bad about a payload is reported exactly if zlib refuses a call; for
the rest nothing may be bad. Otherwise `parseFrom` goes on with what there is. -/
theorem decode_reports_iff (z : Zlib size) (writes : List (List Bytes)) (host : Host)
    (heap : Nat → UInt8) (v : List Bytes) :
    (Reports (session decode writes (create z)) ↔
      Told (session decode writes (create z)).2.calls) ∧
    ((Bad (session decode [v] (create z)).2.calls →
        ∀ ba, ungzip z host heap v ≠ .done ba) ↔
      Told (session decode [v] (create z)).2.calls) := by
  constructor
  · rw [Reports, session_fails, bad_iff]
  · rw [← bad_iff, ← session_fails]
    refine imp_congr_right fun _ => ?_
    rcases ungzip_spec z host heap v with ⟨fails, never⟩ | ⟨silent, ba, done, -⟩
    · exact iff_of_true never fails
    · refine iff_of_false (fun never => never ba done) ?_
      rintro ⟨ret, member, fails⟩
      exact fails (silent ret member)

open RockMessageDecoder

variable {host : Host} {heap : Nat → UInt8} {compressed : Bytes}
  {message : Message}

theorem gunzip_new (positive : 0 < compressed.length)
    (short : compressed.length ≤ defaultBaseSize) (z : Zlib size) (host : Host)
    (heap : Nat → UInt8) :
    ∃ ba : ByteArray, ba.unread = compressed ∧
      gunzip z host heap false ba = ungzip z host heap [compressed] := by
  obtain ⟨after, -, appended⟩ := ZlibStream.forM_write host.byteOrder [compressed]
    (ByteArray.inv_new host.byteOrder heap (show 1 ≤ defaultBaseSize by decide))
    rfl rfl
  rw [List.flatten_singleton] at appended
  have content : after.content = compressed := appended.content
  have size : after.size = compressed.length := by
    rw [← appended.inv.content_length, content]
  have default : defaultBaseSize < 2 ^ 32 := by decide
  obtain ⟨buffers, reserved, regions⟩ := ZlibStream.getReadBuffers_chunks
    appended.inv (by omega) (by omega) appended.baseSize
  refine ⟨after.moveTo 0, (received_spec appended).unread, ?_⟩
  rw [gunzip, reserved]
  simp only
  rw [show (after.moveTo 0).root = after.root from rfl, regions, content,
    ZlibStream.chunks, if_pos (.inr short)]

/-- What is given for the payload is taken for it, if nothing was reported. -/
theorem parsed_of_session {z : Zlib size}
    (positive : 0 < compressed.length)
    (short : compressed.length ≤ defaultBaseSize)
    (silent : ∀ ret ∈ (session decode [[compressed]] (create z)).1, ret = .Z_OK)
    (given : (session decode [[compressed]] (create z)).2.getResult =
      message.payload host)
    (small : (message.payload host).length < 2 ^ 32)
    (inside : message.body ≠ [] ∨
      (message.payload host).length % defaultBaseSize ≠ 0) :
    ∃ ba : ByteArray, ba.unread = compressed ∧ ∀ socket,
      Prog.catchAll (parsePayload host (gunzip z host heap) 0x1 ba) (pure none)
        socket = .done (some message) socket := by
  obtain ⟨ba, unread, opened⟩ := gunzip_new positive short z host heap
  refine ⟨ba, unread, ?_⟩
  intro socket
  rcases ungzip_spec z host heap [compressed] with
    ⟨⟨ret, member, fails⟩, -⟩ | ⟨-, after, done, cursor⟩
  · exact absurd (silent ret member) fails
  rw [given] at cursor
  obtain ⟨last, parsed⟩ := Message.parse_spec small cursor (by
    rwa [room_iff (show 0 < defaultBaseSize by decide) (message.payload_pos host)])
  rw [parsePayload, if_pos (by decide), opened, done]
  simp only
  refine Prog.catchAll_done ?_
  rw [Prog.bind_done (Prog.on_done _ parsed)]
  rfl

/-- A notification of eight bytes whose first was sent as 1, stored without
compression behind the checksum of what was sent. -/
def altered : Message :=
  .notify ⟨⟨3⟩, ⟨[9, 2, 3, 4, 5, 6, 7, 8]⟩⟩

def alteredGzip : Bytes :=
  [31, 139, 8, 0, 0, 0, 0, 0, 0, 10, 1, 17, 0, 238, 255, 3, 3, 0, 0, 0, 8, 0, 0, 0,
    9, 2, 3, 4, 5, 6, 7, 8, 153, 63, 89, 239, 17, 0, 0, 0]

/-- It ends before the checksum. -/
def truncatedGzip : Bytes := alteredGzip.take 32

def inflateAltered : Zlib 4096 :=
  whole false alteredGzip (altered.payload ⟨.little, .little⟩) .Z_DATA_ERROR
    .Z_DATA_ERROR (by decide)

def inflateTruncated : Zlib 4096 :=
  whole false truncatedGzip (altered.payload ⟨.little, .little⟩) .Z_OK
    .Z_BUF_ERROR (by decide)

/-- `parseFrom` accepts a payload that fails its checksum, and one without it. -/
theorem decode_reports_not :
    (¬ Reports (session decode [[alteredGzip]] (create inflateAltered)) ∧
      ∃ ba : ByteArray, ba.unread = alteredGzip ∧ ∀ socket,
        Prog.catchAll (parsePayload ⟨.little, .little⟩
            (gunzip inflateAltered ⟨.little, .little⟩ fun _ => 0) 0x1 ba)
          (pure none) socket = .done (some altered) socket) ∧
    ¬ Reports (session decode [[truncatedGzip]] (create inflateTruncated)) ∧
      ∃ ba : ByteArray, ba.unread = truncatedGzip ∧ ∀ socket,
        Prog.catchAll (parsePayload ⟨.little, .little⟩
            (gunzip inflateTruncated ⟨.little, .little⟩ fun _ => 0) 0x1 ba)
          (pure none) socket = .done (some altered) socket := by
  have damaged : (session decode [[alteredGzip]] (create inflateAltered)).1 =
        [.Z_OK, .Z_OK] ∧
      (session decode [[alteredGzip]] (create inflateAltered)).2.calls =
        [⟨.Z_DATA_ERROR, altered.payload ⟨.little, .little⟩⟩,
          ⟨.Z_DATA_ERROR, []⟩] ∧
      (session decode [[alteredGzip]] (create inflateAltered)).2.getResult =
        altered.payload ⟨.little, .little⟩ := by
    decide +kernel
  have short : (session decode [[truncatedGzip]] (create inflateTruncated)).1 =
        [.Z_OK, .Z_OK] ∧
      (session decode [[truncatedGzip]] (create inflateTruncated)).2.calls =
        [⟨.Z_OK, altered.payload ⟨.little, .little⟩⟩, ⟨.Z_BUF_ERROR, []⟩] ∧
      (session decode [[truncatedGzip]] (create inflateTruncated)).2.getResult =
        altered.payload ⟨.little, .little⟩ := by
    decide +kernel
  refine ⟨⟨?_, ?_⟩, ?_, ?_⟩
  · intro reports
    rw [Reports, damaged.1, damaged.2.1] at reports
    obtain ⟨ret, member, fails⟩ := reports (.inl ⟨_, List.mem_cons_self, rfl⟩)
    simp at member
    exact fails member
  · exact parsed_of_session (by decide) (by decide)
      (by rw [damaged.1]; decide) damaged.2.2 (by decide) (.inl (by decide))
  · intro reports
    rw [Reports, short.1, short.2.1] at reports
    obtain ⟨ret, member, fails⟩ := reports (.inr (by simp))
    simp at member
    exact fails member
  · exact parsed_of_session (by decide) (by decide)
      (by rw [short.1]; decide) short.2.2 (by decide) (.inl (by decide))

end Stream

end Zlib

end Sylar
