import Migfm.Chat.RoundTrip

/-! Which bodies the chat decoder reads without leaving the packet or a fixed
array. A body shorter than the fixed part of its kind is never refused. -/
namespace Migfm.Chat
open Wire Library.LittleEndian

/-- The fixed part of each kind, every byte of which a case reads. -/
def operatorcode.shortest : operatorcode → Nat
  | PACKET_CONFIRM => PACKET_CONFIRM_SIZE
  | USER_LOGIN => USER_LOGIN_SIZE
  | USER_LOGIN_SUCESS => USER_LOGIN_SUCESS_SIZE
  | USER_LOGIN_FAILED => 8
  | USER_QUIT => USER_QUIT_SIZE
  | USER_NOTIFICATION_QUIT => USER_NOTIFICATION_QUIT_SIZE
  | REQ_OPPOSITION_INFO => REQ_OPPOSITION_INFO_SIZE
  | GET_OPPOSITION_INFO => 8 * 4 + 2 + NICKNAME_LEN + HEAD_URL_LEN
  | USER_ONLINE_REQ => USERONLINEREQ_SIZE
  | USER_ONLINE_RSP => USERONLINERSP_SIZE
  | TEXT_CHAT_PRIVATE_SEND => 8 * 4 + TOKEN_LEN
  | TEXT_CHAT_PRIVATE_RECV => 8 * 3
  | MULTI_SOUND_SEND => 8 * 4 + 2 + TOKEN_LEN
  | MULTI_SOUND_RECV => 8 * 3
  | MULTI_CHAT_SEND => 8 * 4 + TOKEN_LEN
  | MULTI_CHAT_RECV => 8 * 3 + NICKNAME_LEN
  | HEART_PACKET | CHAT_ERROR => 0

def shortest (packet_operate : Int32) : Nat :=
  ((operatorcode.ofValue packet_operate).map operatorcode.shortest).getD 0

/-- The body lengths a case reads in bounds. One element of the opposition list
already stores past its `user_head`. -/
def operatorcode.readable (code : operatorcode) (length : Nat) : Prop :=
  match code with
  | USER_LOGIN_FAILED | TEXT_CHAT_PRIVATE_RECV => False
  | GET_OPPOSITION_INFO => code.shortest ≤ length ∧ length < 104 + OPPSITIONINFO_SIZE
  | _ => code.shortest ≤ length

theorem fits_token : Fits readToken TOKEN_LEN := fits_array (by decide)
theorem fits_nickname : Fits readNickname NICKNAME_LEN := fits_array (by decide)
theorem fits_headUrl : Fits readHeadUrl HEAD_URL_LEN := fits_array (by decide)

theorem fits_read8 : Fits read8 1 := fits_scalar Int8
theorem fits_read16 : Fits read16 2 := fits_scalar Int16
theorem fits_read64 : Fits read64 8 := fits_scalar Int64

section Cases
variable {data_length : Int32} {length : Nat} (whole : data_length.toInt = length)
include whole

/-- The text after a fixed part of `fixed` bytes ends where the body ends. -/
theorem fits_tail {len : Int32} {fixed : Nat} (computed : len.toInt = data_length.toInt - fixed)
    (long : fixed ≤ length) : Fits (readText len) (length - fixed) := by
  have fit := @fits_text len (by omega)
  rwa [computed,show (data_length.toInt - fixed).toNat = length - fixed by omega] at fit

/-- A readable body is read to its end, or to the end of its fixed part. -/
theorem Body.fits {code : operatorcode} (handled : code.handled = true) (readable : code.readable length) :
    ∃ n, n ≤ length ∧ Fits (Body.read code data_length) n := by
  have nonneg : 0 ≤ data_length.toInt := by omega
  cases code with
  | HEART_PACKET => cases handled
  | CHAT_ERROR => cases handled
  | USER_LOGIN_FAILED => exact readable.elim
  | TEXT_CHAT_PRIVATE_RECV => exact readable.elim
  | PACKET_CONFIRM =>
    refine ⟨72,readable,Fits.map _ ?_⟩
    exact fits_read64.bind fun _ => fits_read64.bind fun _ => fits_read64.bind fun _ => fits_read64.bind fun _ =>
      fits_read64.bind fun _ => fits_token.bind fun _ => Fits.pure _
  | USER_LOGIN =>
    refine ⟨51,readable,Fits.map _ ?_⟩
    exact fits_read64.bind fun _ => fits_read64.bind fun _ => fits_read8.bind fun _ => fits_read8.bind fun _ =>
      fits_read8.bind fun _ => fits_token.bind fun _ => Fits.pure _
  | USER_LOGIN_SUCESS =>
    refine ⟨360,readable,Fits.map _ ?_⟩
    exact fits_read64.bind fun _ => fits_read64.bind fun _ => fits_read64.bind fun _ => fits_token.bind fun _ =>
      fits_nickname.bind fun _ => fits_headUrl.bind fun _ => Fits.pure _
  | USER_QUIT =>
    refine ⟨56,readable,Fits.map _ ?_⟩
    exact fits_read64.bind fun _ => fits_read64.bind fun _ => fits_read64.bind fun _ => fits_token.bind fun _ =>
      Fits.pure _
  | USER_NOTIFICATION_QUIT =>
    refine ⟨16,readable,Fits.map _ ?_⟩
    exact fits_read64.bind fun _ => fits_read64.bind fun _ => Fits.pure _
  | REQ_OPPOSITION_INFO =>
    refine ⟨58,readable,Fits.map _ ?_⟩
    exact fits_read64.bind fun _ => fits_read64.bind fun _ => fits_read64.bind fun _ => fits_read16.bind fun _ =>
      fits_token.bind fun _ => Fits.pure _
  | USER_ONLINE_REQ =>
    refine ⟨56,readable,Fits.map _ ?_⟩
    exact fits_read64.bind fun _ => fits_read64.bind fun _ => fits_read64.bind fun _ => fits_token.bind fun _ =>
      Fits.pure _
  | USER_ONLINE_RSP =>
    refine ⟨336,readable,Fits.map _ ?_⟩
    exact fits_read64.bind fun _ => fits_read64.bind fun _ => fits_read64.bind fun _ => fits_read64.bind fun _ =>
      fits_nickname.bind fun _ => fits_headUrl.bind fun _ => Fits.pure _
  | GET_OPPOSITION_INFO =>
    obtain ⟨long,short⟩ := readable
    have bound : length < 424 := short
    have long' : 338 ≤ length := long
    have empty : (OppositionInfo.nums data_length).toNatClampNeg = 0 := by
      rw [nums_eq nonneg]
      omega
    have zero : (OppositionInfo.nums data_length).toInt = 0 := by
      rw [nums_toInt nonneg (by omega)]
      omega
    have list : Fits (readList Oppinfo.read (OppositionInfo.nums data_length).toNatClampNeg) 0 := by
      rw [empty]
      exact Fits.pure []
    refine ⟨338,long',Fits.map _ ?_⟩
    exact fits_read64.bind fun _ => fits_read64.bind fun _ => fits_read64.bind fun _ => fits_read64.bind fun _ =>
      fits_read16.bind fun _ => fits_nickname.bind fun _ => fits_headUrl.bind fun _ =>
        (fits_count zero).bind fun _ => list.bind fun _ => Fits.pure _
  | TEXT_CHAT_PRIVATE_SEND =>
    have long : 64 ≤ length := readable
    refine ⟨8 + (8 + (8 + (8 + (32 + (length - 64 + 0))))),by omega,Fits.map _ ?_⟩
    exact fits_read64.bind fun _ => fits_read64.bind fun _ => fits_read64.bind fun _ => fits_read64.bind fun _ =>
      fits_token.bind fun _ => (fits_tail whole (send_length nonneg) long).bind fun _ => Fits.pure _
  | MULTI_CHAT_SEND =>
    have long : 64 ≤ length := readable
    refine ⟨8 + (8 + (8 + (8 + (32 + (length - 64 + 0))))),by omega,Fits.map _ ?_⟩
    exact fits_read64.bind fun _ => fits_read64.bind fun _ => fits_read64.bind fun _ => fits_read64.bind fun _ =>
      fits_token.bind fun _ => (fits_tail whole (send_length nonneg) long).bind fun _ => Fits.pure _
  | MULTI_CHAT_RECV =>
    have long : 72 ≤ length := readable
    refine ⟨8 + (8 + (8 + (48 + (length - 72 + 0)))),by omega,Fits.map _ ?_⟩
    exact fits_read64.bind fun _ => fits_read64.bind fun _ => fits_read64.bind fun _ =>
      fits_nickname.bind fun _ => (fits_tail whole (multi_recv_length nonneg) long).bind fun _ => Fits.pure _
  | MULTI_SOUND_SEND =>
    have long : 66 ≤ length := readable
    refine ⟨8 + (8 + (2 + (8 + (8 + (32 + (length - 66 + 0)))))),by omega,Fits.map _ ?_⟩
    exact fits_read64.bind fun _ => fits_read64.bind fun _ => fits_read16.bind fun _ => fits_read64.bind fun _ =>
      fits_read64.bind fun _ => fits_token.bind fun _ =>
        (fits_tail whole (sound_send_length nonneg) long).bind fun _ => Fits.pure _
  | MULTI_SOUND_RECV =>
    have long : 24 ≤ length := readable
    refine ⟨8 + (8 + (8 + (length - 24 + 0))),by omega,Fits.map _ ?_⟩
    exact fits_read64.bind fun _ => fits_read64.bind fun _ => fits_read64.bind fun _ =>
      (fits_tail whole (sound_recv_length nonneg) long).bind fun _ => Fits.pure _

end Cases

/-! ### Reads that leave the packet -/

theorem keeps_oppinfo : Keeps Oppinfo.read :=
  (keeps_scalar Int64).bind fun _ => (keeps_scalar Int64).bind fun _ => (keeps_array _ _).bind fun _ =>
    (keeps_array _ _).bind fun _ => Keeps.pure _

theorem oppinfo_store :
    Yields Oppinfo.read fun _ next => .store HEAD_URL_LEN HEAD_URL_LEN ∈ next.touched :=
  Yields.bind fun _ => Yields.bind fun _ => Yields.bind fun _ =>
    yields_then (readArray_store _ _) fun _ _ stored => stored

/-- The first element stores past its `user_head`; no later read takes that back. -/
theorem list_store {n : Nat} (some : n ≠ 0) :
    Yields (readList Oppinfo.read n) fun _ next => .store HEAD_URL_LEN HEAD_URL_LEN ∈ next.touched := by
  cases n with
  | zero => exact absurd rfl some
  | succ n =>
    intro packet value next outcome
    obtain ⟨⟨x,middle⟩,first,rest⟩ := Option.bind_eq_some_iff.mp outcome
    have stored := oppinfo_store packet x middle first
    exact ((keeps_list keeps_oppinfo n).bind fun _ => Keeps.pure _) _ _ _ rest _ stored

theorem readable_of_safe {code : operatorcode} {data_length : Int32} {packet next : DataInPacket}
    {rest : List UInt8} {body : Body} {total : Nat} (ready : packet.Ready rest)
    (whole : data_length.toInt = rest.length) (enough : code.shortest ≤ rest.length)
    (read : Body.read code data_length packet = some (body,next))
    (safe : ∀ touch ∈ next.touched, touch.Safe total) : code.readable rest.length := by
  have nonneg : 0 ≤ data_length.toInt := by omega
  cases code with
  | USER_LOGIN_FAILED =>
    have room : 8 ≤ rest.length := enough
    obtain ⟨v,read⟩ := map_outcome read
    obtain ⟨_,middle,ready',read⟩ := fits_read64.after ready room read
    obtain ⟨⟨text,last⟩,texted,finish⟩ := Option.bind_eq_some_iff.mp read
    cases finish
    exact (unsafe_text ready' texted (by rw [List.length_drop]; omega) safe).elim
  | TEXT_CHAT_PRIVATE_RECV =>
    have room : 24 ≤ rest.length := enough
    obtain ⟨v,read⟩ := map_outcome read
    obtain ⟨_,_,ready1,read⟩ := fits_read64.after ready (by omega) read
    obtain ⟨_,_,ready2,read⟩ := fits_read64.after ready1 (by rw [List.length_drop]; omega) read
    obtain ⟨_,_,ready3,read⟩ := fits_read64.after ready2 (by simp only [List.length_drop]; omega) read
    obtain ⟨⟨text,last⟩,texted,finish⟩ := Option.bind_eq_some_iff.mp read
    cases finish
    refine (unsafe_text ready3 texted ?_ safe).elim
    rw [private_recv_length nonneg]
    simp only [List.length_drop]
    omega
  | GET_OPPOSITION_INFO =>
    refine ⟨enough,?_⟩
    by_contra long
    have many : (OppositionInfo.nums data_length).toNatClampNeg ≠ 0 := by
      have size : ¬ rest.length < 104 + 320 := long
      rw [nums_eq nonneg]
      omega
    have stored : Yields (OppositionInfo.read data_length)
        fun _ next => .store HEAD_URL_LEN HEAD_URL_LEN ∈ next.touched :=
      Yields.bind fun _ => Yields.bind fun _ => Yields.bind fun _ => Yields.bind fun _ => Yields.bind fun _ =>
        Yields.bind fun _ => Yields.bind fun _ => Yields.bind fun _ =>
          yields_then (list_store many) fun _ _ stored => stored
    obtain ⟨v,read⟩ := map_outcome read
    exact Nat.lt_irrefl _ (safe _ (stored packet v next read))
  | _ => exact enough

/-- The condition under which the decoder keeps its promises. -/
def Readable (packet_stream : List UInt8) : Prop :=
  ∀ code, operatorcode.ofValue (field packet_stream 4) = some code → code.handled = true →
    code.readable (packet_stream.length - PACKET_HEAD_LENGTH)

theorem shortest_le_of_readable {code : operatorcode} {length : Nat} (readable : code.readable length) :
    code.shortest ≤ length := by
  cases code <;> first | exact readable | exact readable.1 | exact readable.elim

theorem shortest_code {packet_operate : Int32} {code : operatorcode}
    (kind : operatorcode.ofValue packet_operate = some code) : shortest packet_operate = code.shortest := by
  simp only [shortest,kind,Option.map_some,Option.getD_some]

section Stream
variable {packet_stream : List UInt8} (accepts : headerAccepts packet_stream = true)
include accepts

theorem readable_of_inBounds {around : Int → UInt8}
    (bounds : protocolPack.InBounds shortest around packet_stream) : Readable packet_stream := by
  intro code kind handled
  have handles : protocolPack.handles (field packet_stream 4) = true := by
    simpa only [protocolPack,kind,Option.any_some] using handled
  have long := ((headerAccepts_iff packet_stream).mp accepts).1
  obtain ⟨enough,head,middle,body,next,ready,inner,read,safe⟩ := enough_of_inBounds accepts handles bounds
  simp only [protocolPack,kind] at read
  rw [shortest_code kind] at enough
  have readable := readable_of_safe ready (by rw [List.length_drop]; omega)
    (by rw [List.length_drop]; exact enough) read safe
  rwa [List.length_drop] at readable

theorem inBounds_of_readable (around : Int → UInt8) (readable : Readable packet_stream) :
    protocolPack.InBounds shortest around packet_stream := by
  have long := ((headerAccepts_iff packet_stream).mp accepts).1
  by_cases handles : protocolPack.handles (field packet_stream 4) = true
  · obtain ⟨code,kind,handled⟩ := (Option.any_eq_true _ _).mp handles
    have good := readable code kind handled
    apply inBounds_of_fits accepts handles
    · rw [shortest_code kind]
      exact shortest_le_of_readable good
    · intro data_length inner
      simp only [protocolPack,kind]
      exact Body.fits (by omega) handled good
  · exact inBounds_of_unhandled (Bool.eq_false_iff.mpr handles)

end Stream

/-- The decoder is in bounds exactly on the readable bodies. -/
theorem inBounds_iff (around : Int → UInt8) (packet_stream : List UInt8)
    (accepts : headerAccepts packet_stream = true) :
    protocolPack.InBounds shortest around packet_stream ↔ Readable packet_stream :=
  ⟨readable_of_inBounds accepts,inBounds_of_readable accepts around⟩

/-- A USER_NOTIFICATION_QUIT of two words. -/
def quitStream : List UInt8 := [47,0,0,0,243,3,0,0,16,0,0,0] ++ List.replicate 35 0

/-- A USER_LOGIN without a body. -/
def emptyLoginStream : List UInt8 := [31,0,0,0,232,3,0,0] ++ List.replicate 23 0

theorem quitStream_inBounds : protocolPack.InBounds shortest (fun _ => 0) quitStream := by
  refine (inBounds_iff (fun _ => 0) quitStream (by decide)).mpr ?_
  intro code kind _
  have named : operatorcode.ofValue (field quitStream 4) = some .USER_NOTIFICATION_QUIT := by decide
  rw [named,Option.some.injEq] at kind
  subst kind
  show 16 ≤ quitStream.length - PACKET_HEAD_LENGTH
  decide

/-- The empty login is read past its end. -/
theorem emptyLogin_outOfBounds :
    ¬ ∀ (around : Int → UInt8) (packet_stream : List UInt8), headerAccepts packet_stream = true →
      protocolPack.InBounds shortest around packet_stream := by
  intro every
  have accepts : headerAccepts emptyLoginStream = true := by decide
  have readable := readable_of_inBounds accepts (every (fun _ => 0) emptyLoginStream accepts)
  have room : 51 ≤ emptyLoginStream.length - PACKET_HEAD_LENGTH := readable .USER_LOGIN (by decide) rfl
  exact absurd room (by decide)

end Migfm.Chat
