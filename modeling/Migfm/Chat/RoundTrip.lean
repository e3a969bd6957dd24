import Migfm.Chat.Protocol

/-! When a packed chat message unpacks to itself. Fourteen of the sixteen cases
read back what they write; the two whose text length is computed wrongly never
do. -/
namespace Migfm.Chat
open Library.Words
open Wire Library.LittleEndian

def Oppinfo.layout (v : Oppinfo) : List (List UInt8) :=
  [Scalar.encode v.user_id,Scalar.encode v.user_nicknumber,v.nickname.toList,v.user_head.toList]

/-- The writes of a case, in order. -/
def Body.layout : Body → List (List UInt8)
  | packetConfirm v => [Scalar.encode v.platform_id,Scalar.encode v.send_user_id,
      Scalar.encode v.recv_user_id,Scalar.encode v.session_id,Scalar.encode v.private_msg_id,v.token.toList]
  | userLogin v => [Scalar.encode v.platform_id,Scalar.encode v.user_id,Scalar.encode v.net_type,
      Scalar.encode v.user_type,Scalar.encode v.device,v.token.toList]
  | userLoginSucess v => [Scalar.encode v.platform_id,Scalar.encode v.user_id,Scalar.encode v.nick_number,
      v.token.toList,v.nickname.toList,v.head_url.toList]
  | chatFailed v => [Scalar.encode v.platform_id,v.error_msg]
  | userQuit v => [Scalar.encode v.platform_id,Scalar.encode v.user_id,Scalar.encode v.session,v.token.toList]
  | userQuitNotification v => [Scalar.encode v.platform_id,Scalar.encode v.user_id]
  | reqOppstionInfo v => [Scalar.encode v.platform_id,Scalar.encode v.user_id,Scalar.encode v.oppostion_id,
      Scalar.encode v.type,v.token.toList]
  | oppositionInfo v => [Scalar.encode v.platform_id,Scalar.encode v.oppo_id,Scalar.encode v.oppo_nick_number,
      Scalar.encode v.session,Scalar.encode v.oppo_type,v.oppo_nickname.toList,v.oppo_user_head.toList] ++
      v.opponfo_list.flatMap Oppinfo.layout
  | userOnLineReq v => [Scalar.encode v.platform_id,Scalar.encode v.group_id,Scalar.encode v.user_id,v.token.toList]
  | userOnLineRsp v => [Scalar.encode v.platform_id,Scalar.encode v.group_id,Scalar.encode v.user_id,
      Scalar.encode v.user_nicknumber,v.nickname.toList,v.user_head.toList]
  | textChatPrivateSend v => [Scalar.encode v.platform_id,Scalar.encode v.send_user_id,
      Scalar.encode v.recv_user_id,Scalar.encode v.session,v.token.toList,v.content]
  | textChatPrivateRecv v => [Scalar.encode v.platform_id,Scalar.encode v.send_user_id,
      Scalar.encode v.recv_user_id,v.content]
  | multiSoundSend v => [Scalar.encode v.platform_id,Scalar.encode v.multi_id,Scalar.encode v.multi_type,
      Scalar.encode v.send_user_id,Scalar.encode v.session,v.token.toList,v.sound_path]
  | multiSoundRecv v => [Scalar.encode v.platform_id,Scalar.encode v.multi_id,Scalar.encode v.send_user_id,
      v.sound_path]
  | multiChatSend v => [Scalar.encode v.platform_id,Scalar.encode v.multi_id,Scalar.encode v.send_user_id,
      Scalar.encode v.session,v.token.toList,v.content]
  | multiChatRecv v => [Scalar.encode v.platform_id,Scalar.encode v.multi_id,Scalar.encode v.send_user_id,
      v.send_nickname.toList,v.content]

theorem length_oppinfo (v : Oppinfo) : v.layout.flatten.length = OPPSITIONINFO_SIZE := by
  simp only [Oppinfo.layout,List.flatten_cons,List.flatten_nil,List.length_append,List.length_nil,
    Scalar.length_encode,Vector.length_toList]
  rfl

theorem length_oppinfos (vs : List Oppinfo) :
    (vs.flatMap Oppinfo.layout).flatten.length = vs.length * OPPSITIONINFO_SIZE := by
  induction vs with
  | nil => rfl
  | cons v vs ih =>
    rw [List.flatMap_cons,List.flatten_append,List.length_append,length_oppinfo,ih,List.length_cons,
      Nat.succ_mul,Nat.add_comm]

/-- The size macros count what is written. -/
theorem length_layout (body : Body) : body.layout.flatten.length = body.size := by
  cases body with
  | oppositionInfo v =>
    simp only [Body.layout,List.flatten_append,List.flatten_cons,List.flatten_nil,List.length_append,
      List.length_nil,Scalar.length_encode,Vector.length_toList,length_oppinfos,Body.size]
    simp only [Scalar.width]
    omega
  | _ =>
    simp only [Body.layout,List.flatten_cons,List.flatten_nil,List.length_append,List.length_nil,
      Scalar.length_encode,Vector.length_toList,Body.size,PACKET_CONFIRM_SIZE,USER_LOGIN_SIZE,
      USER_LOGIN_SUCESS_SIZE,USER_LOGIN_FAILED_SIZE,USER_QUIT_SIZE,USER_NOTIFICATION_QUIT_SIZE,
      REQ_OPPOSITION_INFO_SIZE,USERONLINEREQ_SIZE,USERONLINERSP_SIZE,TEXTCHATPRIVATESEND_SIZE,
      TEXTCHATPRIVATERECV_SIZE,MULTISOUNDSEND_SIZE,MULTISOUNDRECV_SIZE,MULTICHATSEND_SIZE,MULTICHATRECV_SIZE]
    simp only [Scalar.width]
    try omega

theorem Body.size_ne_zero (body : Body) : body.size ≠ 0 := by
  cases body <;>
    simp [Body.size,PACKET_CONFIRM_SIZE,USER_LOGIN_SIZE,USER_LOGIN_SUCESS_SIZE,USER_LOGIN_FAILED_SIZE,
      USER_QUIT_SIZE,USER_NOTIFICATION_QUIT_SIZE,REQ_OPPOSITION_INFO_SIZE,USERONLINEREQ_SIZE,
      USERONLINERSP_SIZE,TEXTCHATPRIVATESEND_SIZE,TEXTCHATPRIVATERECV_SIZE,MULTISOUNDSEND_SIZE,
      MULTISOUNDRECV_SIZE,MULTICHATSEND_SIZE,MULTICHATRECV_SIZE]

theorem size_oppositionInfo (v : OppositionInfo) :
    (Body.oppositionInfo v).size = v.opponfo_list.length * 320 + 338 := by
  simp only [Body.size,OPPSITIONINFO_SIZE,NICKNAME_LEN,HEAD_URL_LEN]

theorem Oppinfo.writes (v : Oppinfo) : Writes v.write v.layout :=
  (writes_scalar _).cons ((writes_scalar _).cons ((writes_array _ (by decide)).cons (writes_array _ (by decide))))

theorem text_small {body : Body} {text : List UInt8} (member : text ∈ body.layout)
    (sized : PACKET_HEAD_LENGTH + body.size < 2^31) : text.length < 2^31 := by
  have part := (List.sublist_flatten_of_mem member).length_le
  rw [length_layout] at part
  omega

theorem Body.writes (body : Body) (sized : PACKET_HEAD_LENGTH + body.size < 2^31) :
    Writes body.write body.layout := by
  have small (text : List UInt8) (member : text ∈ body.layout) := text_small member sized
  cases body with
  | packetConfirm v =>
    exact (writes_scalar _).cons ((writes_scalar _).cons ((writes_scalar _).cons ((writes_scalar _).cons
      ((writes_scalar _).cons (writes_array _ (by decide))))))
  | userLogin v =>
    exact (writes_scalar _).cons ((writes_scalar _).cons ((writes_scalar _).cons ((writes_scalar _).cons
      ((writes_scalar _).cons (writes_array _ (by decide))))))
  | userLoginSucess v =>
    exact (writes_scalar _).cons ((writes_scalar _).cons ((writes_scalar _).cons
      ((writes_array _ (by decide)).cons ((writes_array _ (by decide)).cons (writes_array _ (by decide))))))
  | chatFailed v => exact (writes_scalar _).cons (writes_text _ (small _ (by simp [layout])))
  | userQuit v =>
    exact (writes_scalar _).cons ((writes_scalar _).cons ((writes_scalar _).cons (writes_array _ (by decide))))
  | userQuitNotification v => exact (writes_scalar _).cons (writes_scalar _)
  | reqOppstionInfo v =>
    exact (writes_scalar _).cons ((writes_scalar _).cons ((writes_scalar _).cons ((writes_scalar _).cons
      (writes_array _ (by decide)))))
  | oppositionInfo v =>
    exact (writes_scalar _).cons ((writes_scalar _).cons ((writes_scalar _).cons ((writes_scalar _).cons
      ((writes_scalar _).cons ((writes_array _ (by decide)).cons ((writes_array _ (by decide)).cons
        (writes_list Oppinfo.writes _)))))))
  | userOnLineReq v =>
    exact (writes_scalar _).cons ((writes_scalar _).cons ((writes_scalar _).cons (writes_array _ (by decide))))
  | userOnLineRsp v =>
    exact (writes_scalar _).cons ((writes_scalar _).cons ((writes_scalar _).cons ((writes_scalar _).cons
      ((writes_array _ (by decide)).cons (writes_array _ (by decide))))))
  | textChatPrivateSend v =>
    exact (writes_scalar _).cons ((writes_scalar _).cons ((writes_scalar _).cons ((writes_scalar _).cons
      ((writes_array _ (by decide)).cons (writes_text _ (small _ (by simp [layout])))))))
  | textChatPrivateRecv v =>
    exact (writes_scalar _).cons ((writes_scalar _).cons ((writes_scalar _).cons
      (writes_text _ (small _ (by simp [layout])))))
  | multiSoundSend v =>
    exact (writes_scalar _).cons ((writes_scalar _).cons ((writes_scalar _).cons ((writes_scalar _).cons
      ((writes_scalar _).cons ((writes_array _ (by decide)).cons (writes_text _ (small _ (by simp [layout]))))))))
  | multiSoundRecv v =>
    exact (writes_scalar _).cons ((writes_scalar _).cons ((writes_scalar _).cons
      (writes_text _ (small _ (by simp [layout])))))
  | multiChatSend v =>
    exact (writes_scalar _).cons ((writes_scalar _).cons ((writes_scalar _).cons ((writes_scalar _).cons
      ((writes_array _ (by decide)).cons (writes_text _ (small _ (by simp [layout])))))))
  | multiChatRecv v =>
    exact (writes_scalar _).cons ((writes_scalar _).cons ((writes_scalar _).cons
      ((writes_array _ (by decide)).cons (writes_text _ (small _ (by simp [layout]))))))

/-! ### Lengths computed from data_length -/

section Lengths
variable {data_length : Int32} (nonneg : 0 ≤ data_length.toInt)
include nonneg

theorem send_length :
    (data_length - 8 * 4 - Int32.ofNat TOKEN_LEN).toInt = data_length.toInt - 64 := by
  have high := data_length.toInt_lt
  have words : (8 * 4 : Int32).toInt = 32 := rfl
  have token : (Int32.ofNat TOKEN_LEN).toInt = 32 := rfl
  have first := toInt_sub_exact (a := data_length) (b := 8 * 4) (by omega) (by omega)
  rw [toInt_sub_exact (by omega) (by omega),first]
  omega

theorem multi_recv_length :
    (data_length - 8 * 3 - Int32.ofNat NICKNAME_LEN).toInt = data_length.toInt - 72 := by
  have high := data_length.toInt_lt
  have words : (8 * 3 : Int32).toInt = 24 := rfl
  have nickname : (Int32.ofNat NICKNAME_LEN).toInt = 48 := rfl
  have first := toInt_sub_exact (a := data_length) (b := 8 * 3) (by omega) (by omega)
  rw [toInt_sub_exact (by omega) (by omega),first]
  omega

theorem sound_send_length :
    (data_length - 8 * 4 - 2 - Int32.ofNat TOKEN_LEN).toInt = data_length.toInt - 66 := by
  have high := data_length.toInt_lt
  have words : (8 * 4 : Int32).toInt = 32 := rfl
  have half : (2 : Int32).toInt = 2 := rfl
  have token : (Int32.ofNat TOKEN_LEN).toInt = 32 := rfl
  have first := toInt_sub_exact (a := data_length) (b := 8 * 4) (by omega) (by omega)
  have second := toInt_sub_exact (a := data_length - 8 * 4) (b := 2) (by omega) (by omega)
  rw [toInt_sub_exact (by omega) (by omega),second,first]
  omega

theorem sound_recv_length : (data_length - 8 * 3).toInt = data_length.toInt - 24 := by
  have high := data_length.toInt_lt
  have words : (8 * 3 : Int32).toInt = 24 := rfl
  rw [toInt_sub_exact (by omega) (by omega)]
  omega

theorem private_recv_length : (data_length - 8 * 2).toInt = data_length.toInt - 16 := by
  have high := data_length.toInt_lt
  have words : (8 * 2 : Int32).toInt = 16 := rfl
  rw [toInt_sub_exact (by omega) (by omega)]
  omega

theorem list_size :
    (data_length - 8 * 3 - Int32.ofNat NICKNAME_LEN - Int32.ofNat TOKEN_LEN).toInt = data_length.toInt - 104 := by
  have high := data_length.toInt_lt
  have words : (8 * 3 : Int32).toInt = 24 := rfl
  have nickname : (Int32.ofNat NICKNAME_LEN).toInt = 48 := rfl
  have token : (Int32.ofNat TOKEN_LEN).toInt = 32 := rfl
  have first := toInt_sub_exact (a := data_length) (b := 8 * 3) (by omega) (by omega)
  have second := toInt_sub_exact (a := data_length - 8 * 3) (b := Int32.ofNat NICKNAME_LEN) (by omega) (by omega)
  rw [toInt_sub_exact (by omega) (by omega),second,first]
  omega

theorem nums_toInt (long : 104 ≤ data_length.toInt) :
    (OppositionInfo.nums data_length).toInt = (data_length.toInt - 104) / 320 := by
  have high := data_length.toInt_lt
  have size : OPPSITIONINFO_SIZE = 320 := rfl
  simp only [OppositionInfo.nums,list_size nonneg,size]
  rw [sizeT_of_nonneg (by omega) (by omega),Int32.toInt_ofNat_of_lt (by omega)]
  omega

/-- Below 104 the division is of a huge `size_t`, and its low 32 bits are negative. -/
theorem nums_eq :
    (OppositionInfo.nums data_length).toNatClampNeg = ((data_length.toInt - 104) / 320).toNat := by
  have clamp (value : Int32) : value.toNatClampNeg = value.toInt.toNat := rfl
  have size : OPPSITIONINFO_SIZE = 320 := rfl
  by_cases long : 104 ≤ data_length.toInt
  · rw [clamp,nums_toInt nonneg long]
  · rw [clamp,OppositionInfo.nums]
    simp only [list_size nonneg,size]
    have quotient : sizeT (data_length.toInt - 104) / 320 = 57646075230342348 := by
      unfold sizeT
      omega
    rw [quotient]
    obtain ⟨i,wraps⟩ := toInt_ofNat_wraps 57646075230342348
    have low := Int32.le_toInt (Int32.ofNat 57646075230342348)
    have top := Int32.toInt_lt (Int32.ofNat 57646075230342348)
    omega

end Lengths

/-! ### Reading back what was written -/

theorem reads_token {token : CharArray TOKEN_LEN} (last : token.Terminated) : Reads readToken [token.toList] token :=
  reads_array token _ last.store

theorem reads_nickname {nickname : CharArray NICKNAME_LEN} (last : nickname.Terminated) :
    Reads readNickname [nickname.toList] nickname :=
  reads_array nickname _ last.store

theorem reads_headUrl {head_url : CharArray HEAD_URL_LEN} (last : head_url.Terminated) :
    Reads readHeadUrl [head_url.toList] head_url :=
  reads_array head_url _ last.store

/-- The NUL stored past `user_head` leaves the struct as it was read. -/
theorem Oppinfo.reads {v : Oppinfo} (last : v.nickname.Terminated) : Reads Oppinfo.read v.layout v := by
  have past : v.user_head.setIfInBounds HEAD_URL_LEN 0 = v.user_head := by
    apply Vector.ext
    intro i bound
    rw [Vector.getElem_setIfInBounds,if_neg (by omega)]
  exact (reads_scalar _).cons ((reads_scalar _).cons ((reads_nickname last).cons
    ((reads_array _ _ past).cons (Reads.pure _))))

theorem Body.reads (body : Body) (terminated : body.Terminated)
    (sized : PACKET_HEAD_LENGTH + body.size < 2^31)
    (failed : body.code ≠ .USER_LOGIN_FAILED) (recv : body.code ≠ .TEXT_CHAT_PRIVATE_RECV) :
    Reads (Body.read body.code (Int32.ofNat body.size)) body.layout body := by
  have total : (Int32.ofNat body.size).toInt = body.size := (sent_packet_length ⟨0,0,0,0,0,0,0,0⟩ sized).2
  have nonneg : 0 ≤ (Int32.ofNat body.size).toInt := by omega
  cases body with
  | packetConfirm v =>
    exact Reads.map packetConfirm ((reads_scalar _).cons ((reads_scalar _).cons ((reads_scalar _).cons
      ((reads_scalar _).cons ((reads_scalar _).cons ((reads_token terminated).cons (Reads.pure _)))))))
  | userLogin v =>
    exact Reads.map userLogin ((reads_scalar _).cons ((reads_scalar _).cons ((reads_scalar _).cons
      ((reads_scalar _).cons ((reads_scalar _).cons ((reads_token terminated).cons (Reads.pure _)))))))
  | userLoginSucess v =>
    obtain ⟨token,nickname,head_url⟩ := terminated
    exact Reads.map userLoginSucess ((reads_scalar _).cons ((reads_scalar _).cons ((reads_scalar _).cons
      ((reads_token token).cons ((reads_nickname nickname).cons ((reads_headUrl head_url).cons (Reads.pure _)))))))
  | chatFailed v => exact absurd rfl failed
  | userQuit v =>
    exact Reads.map userQuit ((reads_scalar _).cons ((reads_scalar _).cons ((reads_scalar _).cons
      ((reads_token terminated).cons (Reads.pure _)))))
  | userQuitNotification v =>
    exact Reads.map userQuitNotification ((reads_scalar _).cons ((reads_scalar _).cons (Reads.pure _)))
  | reqOppstionInfo v =>
    exact Reads.map reqOppstionInfo ((reads_scalar _).cons ((reads_scalar _).cons ((reads_scalar _).cons
      ((reads_scalar _).cons ((reads_token terminated).cons (Reads.pure _))))))
  | oppositionInfo v =>
    obtain ⟨nickname,head,infos⟩ := terminated
    -- The decoder counts from 104 on, 234 bytes early; 234 is less than one element.
    have count : (OppositionInfo.nums (Int32.ofNat (oppositionInfo v).size)).toNatClampNeg =
        v.opponfo_list.length := by
      rw [nums_eq nonneg,total,size_oppositionInfo]
      omega
    have list := reads_list v.opponfo_list fun opp_info member => Oppinfo.reads (infos opp_info member).1
    rw [← count] at list
    rw [layout,← List.append_nil (v.opponfo_list.flatMap Oppinfo.layout)]
    exact Reads.map oppositionInfo ((reads_scalar _).cons ((reads_scalar _).cons ((reads_scalar _).cons
      ((reads_scalar _).cons ((reads_scalar _).cons ((reads_nickname nickname).cons ((reads_headUrl head).cons
        ((reads_count _).append (list.append (Reads.pure _))))))))))
  | userOnLineReq v =>
    exact Reads.map userOnLineReq ((reads_scalar _).cons ((reads_scalar _).cons ((reads_scalar _).cons
      ((reads_token terminated).cons (Reads.pure _)))))
  | userOnLineRsp v =>
    obtain ⟨nickname,head⟩ := terminated
    exact Reads.map userOnLineRsp ((reads_scalar _).cons ((reads_scalar _).cons ((reads_scalar _).cons
      ((reads_scalar _).cons ((reads_nickname nickname).cons ((reads_headUrl head).cons (Reads.pure _)))))))
  | textChatPrivateSend v =>
    have length := send_length nonneg
    have unit : (textChatPrivateSend v).size = 64 + v.content.length := rfl
    rw [total,unit] at length
    exact Reads.map textChatPrivateSend ((reads_scalar _).cons ((reads_scalar _).cons ((reads_scalar _).cons
      ((reads_scalar _).cons ((reads_token terminated).cons
        ((reads_text v.content _ (by rw [unit,length]; omega)).cons (Reads.pure _)))))))
  | textChatPrivateRecv v => exact absurd rfl recv
  | multiSoundSend v =>
    have length := sound_send_length nonneg
    have unit : (multiSoundSend v).size = 66 + v.sound_path.length := rfl
    rw [total,unit] at length
    exact Reads.map multiSoundSend ((reads_scalar _).cons ((reads_scalar _).cons ((reads_scalar _).cons
      ((reads_scalar _).cons ((reads_scalar _).cons ((reads_token terminated).cons
        ((reads_text v.sound_path _ (by rw [unit,length]; omega)).cons (Reads.pure _))))))))
  | multiSoundRecv v =>
    have length := sound_recv_length nonneg
    have unit : (multiSoundRecv v).size = 24 + v.sound_path.length := rfl
    rw [total,unit] at length
    exact Reads.map multiSoundRecv ((reads_scalar _).cons ((reads_scalar _).cons ((reads_scalar _).cons
      ((reads_text v.sound_path _ (by rw [unit,length]; omega)).cons (Reads.pure _)))))
  | multiChatSend v =>
    have length := send_length nonneg
    have unit : (multiChatSend v).size = 64 + v.content.length := rfl
    rw [total,unit] at length
    exact Reads.map multiChatSend ((reads_scalar _).cons ((reads_scalar _).cons ((reads_scalar _).cons
      ((reads_scalar _).cons ((reads_token terminated).cons
        ((reads_text v.content _ (by rw [unit,length]; omega)).cons (Reads.pure _)))))))
  | multiChatRecv v =>
    have length := multi_recv_length nonneg
    have unit : (multiChatRecv v).size = 72 + v.content.length := rfl
    rw [total,unit] at length
    exact Reads.map multiChatRecv ((reads_scalar _).cons ((reads_scalar _).cons ((reads_scalar _).cons
      ((reads_nickname terminated).cons ((reads_text v.content _ (by rw [unit,length]; omega)).cons
        (Reads.pure _))))))

/-! ### What a body that was read looks like -/

/-- The text of the two wrong cases has a length of its own; every other body
that fits an `int32` packet when read also fits one when written. -/
def Body.Decoded (data_length : Int) : Body → Prop
  | chatFailed v => v.error_msg.length = data_length
  | textChatPrivateRecv v => v.content.length = data_length - 16
  | body => PACKET_HEAD_LENGTH + body.size < 2^31

theorem Body.read_decoded (code : operatorcode) {data_length : Int32} (nonneg : 0 ≤ data_length.toInt)
    (bounded : PACKET_HEAD_LENGTH + data_length.toInt < 2^31) :
    Yields (Body.read code data_length) fun body _ => body.Decoded data_length.toInt := by
  unfold PACKET_HEAD_LENGTH at bounded
  cases code with
  | HEART_PACKET => exact yields_none _
  | CHAT_ERROR => exact yields_none _
  | USER_LOGIN_FAILED =>
    apply Yields.map
    exact Yields.bind fun _ => yields_then (readText_length _) fun _ _ length => length
  | TEXT_CHAT_PRIVATE_RECV =>
    apply Yields.map
    refine Yields.bind fun _ => Yields.bind fun _ => Yields.bind fun _ =>
      yields_then (readText_length _) fun text _ length => ?_
    exact length.trans (private_recv_length nonneg)
  | TEXT_CHAT_PRIVATE_SEND =>
    apply Yields.map
    refine Yields.bind fun _ => Yields.bind fun _ => Yields.bind fun _ => Yields.bind fun _ => Yields.bind fun _ =>
      yields_then (readText_length _) fun text _ length => ?_
    rw [send_length nonneg] at length
    show 31 + (64 + text.length) < 2^31
    omega
  | MULTI_CHAT_SEND =>
    apply Yields.map
    refine Yields.bind fun _ => Yields.bind fun _ => Yields.bind fun _ => Yields.bind fun _ => Yields.bind fun _ =>
      yields_then (readText_length _) fun text _ length => ?_
    rw [send_length nonneg] at length
    show 31 + (64 + text.length) < 2^31
    omega
  | MULTI_CHAT_RECV =>
    apply Yields.map
    refine Yields.bind fun _ => Yields.bind fun _ => Yields.bind fun _ => Yields.bind fun _ =>
      yields_then (readText_length _) fun text _ length => ?_
    rw [multi_recv_length nonneg] at length
    show 31 + (72 + text.length) < 2^31
    omega
  | MULTI_SOUND_SEND =>
    apply Yields.map
    refine Yields.bind fun _ => Yields.bind fun _ => Yields.bind fun _ => Yields.bind fun _ => Yields.bind fun _ =>
      Yields.bind fun _ => yields_then (readText_length _) fun text _ length => ?_
    rw [sound_send_length nonneg] at length
    show 31 + (66 + text.length) < 2^31
    omega
  | MULTI_SOUND_RECV =>
    apply Yields.map
    refine Yields.bind fun _ => Yields.bind fun _ => Yields.bind fun _ =>
      yields_then (readText_length _) fun text _ length => ?_
    rw [sound_recv_length nonneg] at length
    show 31 + (24 + text.length) < 2^31
    omega
  | GET_OPPOSITION_INFO =>
    apply Yields.map
    refine Yields.bind fun _ => Yields.bind fun _ => Yields.bind fun _ => Yields.bind fun _ => Yields.bind fun _ =>
      Yields.bind fun _ => Yields.bind fun _ => Yields.bind fun _ =>
        yields_then (readList_length _ _) fun infos _ length => ?_
    rw [nums_eq nonneg] at length
    -- No multiple of 320 lies in the 234 bytes by which the two sizes differ.
    simp only [Decoded,size_oppositionInfo,PACKET_HEAD_LENGTH]
    omega
  | _ =>
    apply Yields.map
    intro _ _ _ _
    simp only [Decoded,size]
    decide

/-- A body some case of the switch read. -/
theorem decoded_of_read {packet_operate data_length : Int32} {packet next : DataInPacket} {body : Body}
    (nonneg : 0 ≤ data_length.toInt) (bounded : PACKET_HEAD_LENGTH + data_length.toInt < 2^31)
    (read : protocolPack.read packet_operate data_length packet = some (body,next)) :
    body.Decoded data_length.toInt := by
  cases kind : operatorcode.ofValue packet_operate with
  | none =>
    simp only [protocolPack,kind] at read
    cases read
  | some code =>
    simp only [protocolPack,kind] at read
    exact Body.read_decoded code nonneg bounded packet body next read

section Kind
variable {packhead : PacketHead} {body : Body} (kind : packhead.operate_code = body.code.value)
include kind

theorem switch_kind : operatorcode.ofValue packhead.operate_code = some body.code := by
  rw [kind,operatorcode.ofValue_value]

theorem handles_kind : protocolPack.handles packhead.operate_code = true := by
  simp only [protocolPack,switch_kind kind,Option.any_some]
  cases body <;> rfl

theorem casts_kind : protocolPack.casts packhead.operate_code body = true := by
  simp [protocolPack,switch_kind kind]

/-- A read of the wrong length or of too long a body never comes back. -/
theorem good_of_roundTrips (trips : protocolPack.RoundTrips packhead body) :
    body.code ≠ .USER_LOGIN_FAILED ∧ body.code ≠ .TEXT_CHAT_PRIVATE_RECV ∧
      PACKET_HEAD_LENGTH + body.size < 2^31 ∧ ¬ packhead.bare := by
  have handled := handles_kind kind
  obtain ⟨packed,unpacked,packs,unpacks,same⟩ := trips (fun _ => 0) (fun _ => 0)
  obtain ⟨_,data_length,_,_,_,_,read,nonneg,bounded,short,full,accepts,_⟩ :=
    read_of_rebuilds handled packs unpacks same
  have decoded := decoded_of_read nonneg bounded read
  have full' : ¬ packhead.bare → data_length.toInt % 2^32 = (body.size : Int) % 2^32 := full
  have proper (sized : PACKET_HEAD_LENGTH + body.size < 2^31) : ¬ packhead.bare := fun bare =>
    body.size_ne_zero (proper_of_rebuilds handled (casts_kind kind) sized (body.writes sized)
      (Nat.le_of_eq (length_layout body)) packs accepts bare)
  have failed : body.code ≠ .USER_LOGIN_FAILED := by
    intro code
    cases body with
    | chatFailed v =>
      have unit : (Body.chatFailed v).size = 8 + v.error_msg.length := rfl
      have length : (v.error_msg.length : Int) = data_length.toInt := decoded
      by_cases bare : packhead.bare
      · have empty := short bare
        exact proper (by rw [unit]; unfold PACKET_HEAD_LENGTH; omega) bare
      · have wrapped := full' bare
        rw [unit] at wrapped
        omega
    | _ => cases code
  have recv : body.code ≠ .TEXT_CHAT_PRIVATE_RECV := by
    intro code
    cases body with
    | textChatPrivateRecv v =>
      have unit : (Body.textChatPrivateRecv v).size = 24 + v.content.length := rfl
      have length : (v.content.length : Int) = data_length.toInt - 16 := decoded
      by_cases bare : packhead.bare
      · have empty := short bare
        omega
      · have wrapped := full' bare
        rw [unit] at wrapped
        omega
    | _ => cases code
  have sized : PACKET_HEAD_LENGTH + body.size < 2^31 := by
    cases body with
    | chatFailed v => exact absurd rfl failed
    | textChatPrivateRecv v => exact absurd rfl recv
    | _ => exact decoded
  exact ⟨failed,recv,sized,proper sized⟩

theorem roundTrips_of_good (terminated : body.Terminated) (failed : body.code ≠ .USER_LOGIN_FAILED)
    (recv : body.code ≠ .TEXT_CHAT_PRIVATE_RECV) (sized : PACKET_HEAD_LENGTH + body.size < 2^31)
    (full : ¬ packhead.bare) : protocolPack.RoundTrips packhead body := by
  intro uninit around
  have reads : Reads (protocolPack.read packhead.operate_code (Int32.ofNat body.size)) body.layout body := by
    simp only [protocolPack,switch_kind kind]
    exact body.reads terminated sized failed recv
  obtain ⟨packed,unpacked,packs,unpacks,same,_⟩ := rebuilds uninit around (handles_kind kind)
    (casts_kind kind) sized (fun bare => absurd bare full) (body.writes sized)
    (Nat.le_of_eq (length_layout body)) reads
  exact ⟨packed,unpacked,packs,unpacks,same⟩

end Kind

/-- The fourteen good kinds come back whenever the packet fits an `int32` and
the head does not ask for a bare header; nothing else comes back. -/
theorem roundTrips_iff (packhead : PacketHead) (body : Body) (kind : packhead.operate_code = body.code.value)
    (terminated : body.Terminated) :
    protocolPack.RoundTrips packhead body ↔
      body.code ≠ .USER_LOGIN_FAILED ∧ body.code ≠ .TEXT_CHAT_PRIVATE_RECV ∧
      PACKET_HEAD_LENGTH + body.size < 2^31 ∧ ¬ packhead.bare := by
  constructor
  · exact good_of_roundTrips kind
  · rintro ⟨failed,recv,sized,full⟩
    exact roundTrips_of_good kind terminated failed recv sized full

theorem roundTrips_quit :
    protocolPack.RoundTrips ⟨0,1011,0,7,1,0,42,0⟩ (.userQuitNotification ⟨10000,-5⟩) :=
  (roundTrips_iff ⟨0,1011,0,7,1,0,42,0⟩ (.userQuitNotification ⟨10000,-5⟩) rfl trivial).mpr (by decide)

/-- The decoder of USER_LOGIN_FAILED takes the whole body for the text. -/
theorem loginFailed_lost :
    ¬ ∀ (packhead : PacketHead) (body : Body), packhead.operate_code = body.code.value → body.Terminated →
      protocolPack.RoundTrips packhead body := by
  intro every
  have failed := every ⟨0,1002,0,7,0,0,42,0⟩ (.chatFailed ⟨10000,[110,111]⟩) rfl trivial
  exact (good_of_roundTrips rfl failed).1 rfl

end Migfm.Chat
