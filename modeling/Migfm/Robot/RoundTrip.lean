import Migfm.Robot.Protocol

/-! When a packed robot message unpacks to itself. Three of the sixteen cases
read other fields, or other widths, than they write. -/
namespace Migfm.Robot
open Library.Words
open Wire Library.LittleEndian

/-- The message comes back, whatever unset memory holds, and each of its fields
is read with the width and in the order it was written. -/
def RoundTrips (packhead : PacketHead) (body : Body) : Prop :=
  ∀ fresh uninit around, ∃ packed unpacked,
    (protocolPack fresh).packStream uninit packhead body = some packed ∧
    (protocolPack fresh).unpackStream around packed.stream = some unpacked ∧
    Rebuilds packhead body packed unpacked ∧ unpacked.widths = packed.widths

/-- An integer an `int32` holds. -/
def IsInt32 (value : Int) : Prop := -2^31 ≤ value ∧ value < 2^31

/-- The bodies whose case reads what it writes. -/
def Body.Faithful : Body → Prop
  | noticeUserRobotHandselSong _ => False
  | noticeRobotLogin v => v.robot_list = []
  | noticeAssistantHandselSong v => v.list = []
  | noticeUserLogin v => IsInt32 v.latitude ∧ IsInt32 v.longitude
  | _ => True

def RobotInfo.layout (v : RobotInfo) : List (List UInt8) :=
  [Scalar.encode v.uid,Scalar.encode (Int64.ofInt v.latitude),Scalar.encode (Int64.ofInt v.longitude),
    v.nickname.toList]

def HandleSongInfo.layout (v : HandleSongInfo) : List (List UInt8) :=
  [Scalar.encode v.uid,Scalar.encode v.songid,v.message.toList]

/-- The writes of a case, in order. -/
def Body.layout : Body → List (List UInt8)
  | heart => []
  | noticeUserLogin v => [Scalar.encode v.platform_id,Scalar.encode v.uid,
      Scalar.encode (Int32.ofInt v.latitude),Scalar.encode (Int32.ofInt v.longitude)]
  | noticeUserDefaultSong v => [Scalar.encode v.platform_id,Scalar.encode v.uid,Scalar.encode v.songid,
      Scalar.encode v.type_id,v.mode]
  | noticeUserCurrentSong v => [Scalar.encode v.platform_id,Scalar.encode v.uid,Scalar.encode v.songid,
      Scalar.encode v.type_id,v.mode]
  | noticeRobotLogin v => Scalar.encode v.uid :: v.robot_list.flatMap RobotInfo.layout
  | schedulerLogin v => [Scalar.encode v.platform_id,v.machine_id]
  | robotLogin v => [Scalar.encode v.platform_id,Scalar.encode v.uid,Scalar.encode v.robot_id]
  | noticeUserRobotHandselSong v => [Scalar.encode v.platform_id,Scalar.encode v.uid,Scalar.encode v.robot_id,
      Scalar.encode v.song_id]
  | noticeUserListenSong v => [Scalar.encode v.platform_id,Scalar.encode v.songid,Scalar.encode v.typid,
      v.mode.toList,v.name.toList,v.singer.toList]
  | noticeAssistantLogin v => [Scalar.encode v.platform_id,Scalar.encode v.assistant_id,v.nickname.toList]
  | assistantLoginSuccess v => [Scalar.encode v.platform_id,Scalar.encode v.assistant_id]
  | noticeUserRobotChatLogin v => [Scalar.encode v.platform_id,Scalar.encode v.uid,Scalar.encode v.robot_id]
  | noticeUserRobotGiftLuck v => [Scalar.encode v.platform_id,Scalar.encode v.uid,Scalar.encode v.share_plat,
      Scalar.encode v.prize,v.name.toList,v.singer.toList]
  | noticeUserReadyGiftLuck v => [Scalar.encode v.platform_id,Scalar.encode v.uid,Scalar.encode v.songid,
      Scalar.encode v.share_plat]
  | noticeAssistantHandselSong v => Scalar.encode v.platform_id :: Scalar.encode v.assistant_id ::
      v.list.flatMap HandleSongInfo.layout

theorem length_flatMap {α : Type} {layout : α → List (List UInt8)} {size : Nat}
    (one : ∀ x, (layout x).flatten.length = size) (xs : List α) :
    (xs.flatMap layout).flatten.length = xs.length * size := by
  induction xs with
  | nil => simp
  | cons x xs ih =>
    rw [List.flatMap_cons,List.flatten_append,List.length_append,one,ih,List.length_cons,Nat.succ_mul,
      Nat.add_comm]

theorem length_robotInfo (v : RobotInfo) : v.layout.flatten.length = ROBOTINFO_SIZE := by
  simp only [RobotInfo.layout,List.flatten_cons,List.flatten_nil,List.length_append,List.length_nil,
    Scalar.length_encode,Vector.length_toList]
  rfl

theorem length_handleSongInfo (v : HandleSongInfo) : v.layout.flatten.length = HANDLESONG_SIZE := by
  simp only [HandleSongInfo.layout,List.flatten_cons,List.flatten_nil,List.length_append,List.length_nil,
    Scalar.length_encode,Vector.length_toList]
  rfl

/-- The size macros count what is written, except that NOTICE_USER_LOGIN
reserves two doubles for two `int32`. -/
theorem length_layout (body : Body) :
    body.layout.flatten.length + (match body with | .noticeUserLogin _ => 8 | _ => 0) = body.size := by
  cases body <;>
    simp only [Body.layout,List.flatten_cons,List.flatten_nil,List.length_append,List.length_nil,
      Scalar.length_encode,Vector.length_toList,length_flatMap length_robotInfo,
      length_flatMap length_handleSongInfo,Body.size,NOTICEUSERLOGIN_SIZE,NOTICEUSERDEFAULTSONG_SIZE,
      NOTICEUSERCURRENTSONG_SIZE,ROBOT_LOGIN_SIZE,NOTICEUSERROBOTHANDSELSONG_SIZE,SCHEDULER_LOGIN_SIZE,
      NOTICEUSERROBOTLISTENSONG_SIZE,NOTICEASSISTANTLOGIN_SIZE,ASSISTANTLOGINSUCCESS_SIZE,
      NOTICEUSERROBOTCHATLOGI_SIZE,NOTICEUSERROBOTGIFTLUCK_SIZE,NOTICEUSERREADYGIFTLUCK_SIZE] <;>
    simp only [Scalar.width] <;> omega

theorem layout_fits (body : Body) : body.layout.flatten.length ≤ body.size := by
  have total := length_layout body
  omega

theorem text_small {body : Body} {text : List UInt8} (member : text ∈ body.layout)
    (sized : PACKET_HEAD_LENGTH + body.size < 2^31) : text.length < 2^31 := by
  have part := (List.sublist_flatten_of_mem member).length_le
  have total := layout_fits body
  omega

theorem RobotInfo.writes (v : RobotInfo) : Writes v.write v.layout :=
  (writes_scalar _).cons ((writes_scalar _).cons ((writes_scalar _).cons (writes_array _ (by decide))))

theorem HandleSongInfo.writes (v : HandleSongInfo) : Writes v.write v.layout :=
  (writes_scalar _).cons ((writes_scalar _).cons (writes_array _ (by decide)))

theorem Body.writes (body : Body) (sized : PACKET_HEAD_LENGTH + body.size < 2^31) :
    Writes body.write body.layout := by
  have small (text : List UInt8) (member : text ∈ body.layout) := text_small member sized
  cases body with
  | heart => exact Writes.nothing
  | noticeUserLogin v =>
    exact (writes_scalar _).cons ((writes_scalar _).cons ((writes_scalar _).cons (writes_scalar _)))
  | noticeUserDefaultSong v =>
    exact (writes_scalar _).cons ((writes_scalar _).cons ((writes_scalar _).cons ((writes_scalar _).cons
      (writes_text _ (small _ (by simp [layout]))))))
  | noticeUserCurrentSong v =>
    exact (writes_scalar _).cons ((writes_scalar _).cons ((writes_scalar _).cons ((writes_scalar _).cons
      (writes_text _ (small _ (by simp [layout]))))))
  | noticeRobotLogin v => exact (writes_scalar _).cons (writes_list RobotInfo.writes _)
  | schedulerLogin v => exact (writes_scalar _).cons (writes_text _ (small _ (by simp [layout])))
  | robotLogin v => exact (writes_scalar _).cons ((writes_scalar _).cons (writes_scalar _))
  | noticeUserRobotHandselSong v =>
    exact (writes_scalar _).cons ((writes_scalar _).cons ((writes_scalar _).cons (writes_scalar _)))
  | noticeUserListenSong v =>
    exact (writes_scalar _).cons ((writes_scalar _).cons ((writes_scalar _).cons
      ((writes_array _ (by decide)).cons ((writes_array _ (by decide)).cons (writes_array _ (by decide))))))
  | noticeAssistantLogin v =>
    exact (writes_scalar _).cons ((writes_scalar _).cons (writes_array _ (by decide)))
  | assistantLoginSuccess v => exact (writes_scalar _).cons (writes_scalar _)
  | noticeUserRobotChatLogin v => exact (writes_scalar _).cons ((writes_scalar _).cons (writes_scalar _))
  | noticeUserRobotGiftLuck v =>
    exact (writes_scalar _).cons ((writes_scalar _).cons ((writes_scalar _).cons ((writes_scalar _).cons
      ((writes_array _ (by decide)).cons (writes_array _ (by decide))))))
  | noticeUserReadyGiftLuck v =>
    exact (writes_scalar _).cons ((writes_scalar _).cons ((writes_scalar _).cons (writes_scalar _)))
  | noticeAssistantHandselSong v =>
    exact (writes_scalar _).cons ((writes_scalar _).cons (writes_list HandleSongInfo.writes _))

/-! ### Lengths computed from data_length -/

section Lengths
variable {data_length : Int32} (nonneg : 0 ≤ data_length.toInt)
include nonneg

theorem song_length : (data_length - 8 * 3 - 4).toInt = data_length.toInt - 28 := by
  have high := data_length.toInt_lt
  have words : (8 * 3 : Int32).toInt = 24 := rfl
  have half : (4 : Int32).toInt = 4 := rfl
  have first := toInt_sub_exact (a := data_length) (b := 8 * 3) (by omega) (by omega)
  rw [toInt_sub_exact (by omega) (by omega),first]
  omega

theorem scheduler_length : (data_length - 8).toInt = data_length.toInt - 8 := by
  have high := data_length.toInt_lt
  have word : (8 : Int32).toInt = 8 := rfl
  rw [toInt_sub_exact (by omega) (by omega)]
  omega

theorem assistant_length : (data_length - 8 * 2).toInt = data_length.toInt - 16 := by
  have high := data_length.toInt_lt
  have words : (8 * 2 : Int32).toInt = 16 := rfl
  rw [toInt_sub_exact (by omega) (by omega)]
  omega

/-- A negative `list_size` is a huge `size_t`; what is left of its quotient is negative. -/
theorem assistant_nums :
    (listNums (data_length - 8 * 2) HANDLESONG_SIZE).toNatClampNeg = ((data_length.toInt - 16) / 528).toNat := by
  have clamp (value : Int32) : value.toNatClampNeg = value.toInt.toNat := rfl
  have size : HANDLESONG_SIZE = 528 := rfl
  have high := data_length.toInt_lt
  rw [clamp,listNums,assistant_length nonneg,size]
  by_cases long : 16 ≤ data_length.toInt
  · rw [sizeT_of_nonneg (by omega) (by omega),Int32.toInt_ofNat_of_lt (by omega)]
    omega
  · have quotient : sizeT (data_length.toInt - 16) / 528 = 34937015291116575 := by
      unfold sizeT
      omega
    rw [quotient]
    obtain ⟨i,wraps⟩ := toInt_ofNat_wraps 34937015291116575
    have low := Int32.le_toInt (Int32.ofNat 34937015291116575)
    have top := Int32.toInt_lt (Int32.ofNat 34937015291116575)
    omega

theorem robot_nums_empty (short : data_length.toInt = 8) :
    (listNums (data_length - 8) ROBOTINFO_SIZE).toNatClampNeg = 0 := by
  rw [listNums,scheduler_length nonneg,short]
  rfl

end Lengths

/-! ### Reading back what was written -/

theorem reads_nickname {nickname : CharArray NICKNAME_LEN} (last : nickname.Terminated) :
    Reads readNickname [nickname.toList] nickname :=
  reads_array nickname _ last.store

theorem reads_mode {mode : CharArray MODE_LEN} (last : mode.Terminated) : Reads readMode [mode.toList] mode :=
  reads_array mode _ last.store

theorem reads_name {name : CharArray NAME_LEN} (last : name.Terminated) : Reads readName [name.toList] name :=
  reads_array name _ last.store

theorem reads_singer {singer : CharArray SINGER_LEN} (last : singer.Terminated) :
    Reads readSinger [singer.toList] singer :=
  reads_array singer _ last.store

theorem Body.reads (fresh : Int64) {code : operatorcode} {body : Body} (cast : Body.casts code body = true)
    (terminated : body.Terminated) (sized : PACKET_HEAD_LENGTH + body.size < 2^31) (faithful : body.Faithful) :
    Reads (Body.read fresh code (Int32.ofNat body.size)) body.layout body := by
  have total : (Int32.ofNat body.size).toInt = body.size := (sent_packet_length ⟨0,0,0,0,0,0,0,0⟩ sized).2
  have nonneg : 0 ≤ (Int32.ofNat body.size).toInt := by omega
  cases body with
  | heart =>
    cases code <;> try exact absurd cast Bool.false_ne_true
    exact Reads.pure _
  | noticeUserLogin v =>
    obtain ⟨platform_id,uid,latitude,longitude⟩ := v
    obtain ⟨⟨low,high⟩,⟨low',high'⟩⟩ := faithful
    have there : (Int32.ofInt latitude).toInt = latitude := Int32.toInt_ofInt_of_le low high
    have here : (Int32.ofInt longitude).toInt = longitude := Int32.toInt_ofInt_of_le low' high'
    cases code <;> try exact absurd cast Bool.false_ne_true
    have reads : Reads NoticeUserLogin.read (noticeUserLogin ⟨platform_id,uid,latitude,longitude⟩).layout
        ⟨platform_id,uid,(Int32.ofInt latitude).toInt,(Int32.ofInt longitude).toInt⟩ :=
      (reads_scalar _).cons ((reads_scalar _).cons ((reads_scalar _).cons ((reads_scalar _).cons (Reads.pure _))))
    rw [there,here] at reads
    exact Reads.map noticeUserLogin reads
  | noticeUserDefaultSong v =>
    have length := song_length nonneg
    have unit : (noticeUserDefaultSong v).size = 28 + v.mode.length := rfl
    rw [total,unit] at length
    cases code <;> try exact absurd cast Bool.false_ne_true
    exact Reads.map noticeUserDefaultSong ((reads_scalar _).cons ((reads_scalar _).cons ((reads_scalar _).cons
      ((reads_scalar _).cons ((reads_text v.mode _ (by rw [unit,length]; omega)).cons (Reads.pure _))))))
  | noticeUserCurrentSong v =>
    have length := song_length nonneg
    have unit : (noticeUserCurrentSong v).size = 28 + v.mode.length := rfl
    rw [total,unit] at length
    cases code <;> try exact absurd cast Bool.false_ne_true
    exact Reads.map noticeUserCurrentSong ((reads_scalar _).cons ((reads_scalar _).cons ((reads_scalar _).cons
      ((reads_scalar _).cons ((reads_text v.mode _ (by rw [unit,length]; omega)).cons (Reads.pure _))))))
  | noticeRobotLogin v =>
    obtain ⟨uid,robot_list⟩ := v
    have none : robot_list = [] := faithful
    subst none
    have empty := robot_nums_empty nonneg total
    have list : Reads (readList (RobotInfo.read fresh) (listNums
        (Int32.ofNat (noticeRobotLogin ⟨uid,[]⟩).size - 8) ROBOTINFO_SIZE).toNatClampNeg) [] [] := by
      rw [empty]
      exact Reads.pure []
    cases code <;> try exact absurd cast Bool.false_ne_true
    exact Reads.map noticeRobotLogin ((reads_scalar _).cons ((reads_count _).append (list.append (Reads.pure _))))
  | schedulerLogin v =>
    have length := scheduler_length nonneg
    have unit : (schedulerLogin v).size = 8 + v.machine_id.length := rfl
    rw [total,unit] at length
    cases code <;> try exact absurd cast Bool.false_ne_true
    exact Reads.map schedulerLogin ((reads_scalar _).cons
      ((reads_text v.machine_id _ (by rw [unit,length]; omega)).cons (Reads.pure _)))
  | robotLogin v =>
    cases code <;> try exact absurd cast Bool.false_ne_true
    exact Reads.map robotLogin ((reads_scalar _).cons ((reads_scalar _).cons ((reads_scalar _).cons (Reads.pure _))))
  | noticeUserRobotHandselSong v => exact faithful.elim
  | noticeUserListenSong v =>
    obtain ⟨mode,name,singer⟩ := terminated
    cases code <;> try exact absurd cast Bool.false_ne_true
    exact Reads.map noticeUserListenSong ((reads_scalar _).cons ((reads_scalar _).cons ((reads_scalar _).cons
      ((reads_mode mode).cons ((reads_name name).cons ((reads_singer singer).cons (Reads.pure _)))))))
  | noticeAssistantLogin v =>
    cases code <;> try exact absurd cast Bool.false_ne_true
    exact Reads.map noticeAssistantLogin ((reads_scalar _).cons ((reads_scalar _).cons
      ((reads_nickname terminated).cons (Reads.pure _))))
  | assistantLoginSuccess v =>
    cases code <;> try exact absurd cast Bool.false_ne_true
    exact Reads.map assistantLoginSuccess ((reads_scalar _).cons ((reads_scalar _).cons (Reads.pure _)))
  | noticeAssistantHandselSong v =>
    obtain ⟨platform_id,assistant_id,list⟩ := v
    have none : list = [] := faithful
    subst none
    have empty : (listNums (Int32.ofNat (noticeAssistantHandselSong ⟨platform_id,assistant_id,[]⟩).size - 8 * 2)
        HANDLESONG_SIZE).toNatClampNeg = 0 := by
      rw [assistant_nums nonneg,total]
      simp [size]
    have list : Reads (readList HandleSongInfo.read (listNums
        (Int32.ofNat (noticeAssistantHandselSong ⟨platform_id,assistant_id,[]⟩).size - 8 * 2)
          HANDLESONG_SIZE).toNatClampNeg) [] [] := by
      rw [empty]
      exact Reads.pure []
    cases code <;> try exact absurd cast Bool.false_ne_true
    exact Reads.map noticeAssistantHandselSong ((reads_scalar _).cons ((reads_scalar _).cons
      ((reads_count _).append (list.append (Reads.pure _)))))
  | noticeUserRobotChatLogin v =>
    have reads := Reads.map noticeUserRobotChatLogin ((reads_scalar v.platform_id).cons (k := fun platform_id => do
      let uid ← read64
      let robot_id ← read64
      return {platform_id,uid,robot_id}) ((reads_scalar v.uid).cons ((reads_scalar v.robot_id).cons (Reads.pure _))))
    cases code <;> first | exact absurd cast Bool.false_ne_true | exact reads
  | noticeUserRobotGiftLuck v =>
    obtain ⟨name,singer⟩ := terminated
    cases code <;> try exact absurd cast Bool.false_ne_true
    exact Reads.map noticeUserRobotGiftLuck ((reads_scalar _).cons ((reads_scalar _).cons ((reads_scalar _).cons
      ((reads_scalar _).cons ((reads_name name).cons ((reads_singer singer).cons (Reads.pure _)))))))
  | noticeUserReadyGiftLuck v =>
    cases code <;> try exact absurd cast Bool.false_ne_true
    exact Reads.map noticeUserReadyGiftLuck ((reads_scalar _).cons ((reads_scalar _).cons ((reads_scalar _).cons
      ((reads_scalar _).cons (Reads.pure _)))))

/-! ### What a body that was read looks like -/

/-- A case builds only the struct it casts to. -/
theorem Body.read_casts (fresh : Int64) (code : operatorcode) (data_length : Int32) :
    Yields (Body.read fresh code data_length) fun body _ => Body.casts code body = true := by
  cases code with
  | HEART_PACKET => exact Yields.pure fun _ => rfl
  | NOTICE_USER_ROBOT_HANDSEL_SONG_SUCCESS => exact yields_none _
  | _ => exact Yields.map fun _ _ _ _ => rfl

/-- The fields a case never reads hold what the new struct held; the other
bodies that fit an `int32` packet when read also fit one when written. -/
def Body.Decoded (fresh : Int64) : Body → Prop
  | noticeUserRobotHandselSong v => v.song_id = fresh
  | noticeRobotLogin v => ∀ robotinfo ∈ v.robot_list, robotinfo.songid = fresh
  | noticeUserLogin v => IsInt32 v.latitude ∧ IsInt32 v.longitude
  | body => PACKET_HEAD_LENGTH + body.size < 2^31

theorem isInt32_toInt (value : Int32) : IsInt32 value.toInt := ⟨value.le_toInt,value.toInt_lt⟩

theorem robotInfo_fresh (fresh : Int64) :
    Yields (RobotInfo.read fresh) fun robotinfo _ => robotinfo.songid = fresh :=
  Yields.bind fun _ => Yields.bind fun _ => Yields.bind fun _ => Yields.bind fun _ => Yields.pure fun _ => rfl

theorem readList_all {α : Type} {element : Reading α} {good : α → Prop} (one : Yields element fun x _ => good x)
    (n : Nat) : Yields (readList element n) fun xs _ => ∀ x ∈ xs, good x := by
  induction n with
  | zero => exact Yields.pure fun _ x member => absurd member List.not_mem_nil
  | succ n ih =>
    intro packet value next outcome
    obtain ⟨⟨x,between⟩,first,rest⟩ := Option.bind_eq_some_iff.mp outcome
    obtain ⟨⟨xs,last⟩,read,finish⟩ := Option.bind_eq_some_iff.mp rest
    cases finish
    have head := one _ _ _ first
    have tail := ih _ _ _ read
    simpa using ⟨head,tail⟩

theorem Body.read_decoded (fresh : Int64) (code : operatorcode) {data_length : Int32}
    (nonneg : 0 ≤ data_length.toInt) (bounded : PACKET_HEAD_LENGTH + data_length.toInt < 2^31) :
    Yields (Body.read fresh code data_length) fun body _ => body.Decoded fresh := by
  unfold PACKET_HEAD_LENGTH at bounded
  cases code with
  | HEART_PACKET => exact Yields.pure fun _ => by simp [Decoded,size,PACKET_HEAD_LENGTH]
  | NOTICE_USER_ROBOT_HANDSEL_SONG_SUCCESS => exact yields_none _
  | NOTICE_USER_LOGIN =>
    apply Yields.map
    exact Yields.bind fun _ => Yields.bind fun _ => Yields.bind fun _ => Yields.bind fun _ =>
      Yields.pure fun _ => ⟨isInt32_toInt _,isInt32_toInt _⟩
  | NOTICE_USER_ROBOT_HANDSEL_SONG =>
    apply Yields.map
    exact Yields.bind fun _ => Yields.bind fun _ => Yields.bind fun _ => Yields.bind fun _ =>
      Yields.pure fun _ => rfl
  | NOTICE_USER_ROBOT_LOGIN =>
    apply Yields.map
    exact Yields.bind fun _ => Yields.bind fun _ =>
      yields_then (readList_all (robotInfo_fresh fresh) _) fun _ _ fresh => fresh
  | NOTICE_USER_DEFAULT_SONG =>
    apply Yields.map
    refine Yields.bind fun _ => Yields.bind fun _ => Yields.bind fun _ => Yields.bind fun _ =>
      yields_then (readText_length _) fun text _ length => ?_
    rw [song_length nonneg] at length
    show 31 + (28 + text.length) < 2^31
    omega
  | NOTICE_USER_CURRENT_SONG =>
    apply Yields.map
    refine Yields.bind fun _ => Yields.bind fun _ => Yields.bind fun _ => Yields.bind fun _ =>
      yields_then (readText_length _) fun text _ length => ?_
    rw [song_length nonneg] at length
    show 31 + (28 + text.length) < 2^31
    omega
  | SCHEDULER_LOGIN =>
    apply Yields.map
    refine Yields.bind fun _ => yields_then (readText_length _) fun text _ length => ?_
    rw [scheduler_length nonneg] at length
    show 31 + (8 + text.length) < 2^31
    omega
  | NOTICE_ASSISTANT_HANDSEL_SONG =>
    apply Yields.map
    refine Yields.bind fun _ => Yields.bind fun _ => Yields.bind fun _ =>
      yields_then (readList_length _ _) fun songs _ length => ?_
    rw [assistant_nums nonneg] at length
    simp only [Decoded,size,HANDLESONG_SIZE,MESSAGE_LEN,PACKET_HEAD_LENGTH]
    omega
  | _ =>
    apply Yields.map
    intro _ _ _ _
    simp only [Decoded,size]
    decide

/-! ### The three wrong cases -/

theorem copies_handleSongInfo : CopiesAtMost HandleSongInfo.read 521 :=
  (copies_scalar Int64).bind fun _ => (copies_scalar Int8).bind fun _ => (copies_array _ _).bind fun _ =>
    CopiesAtMost.pure _

/-- A song is written in 528 bytes and read in 521. -/
theorem copies_assistant {data_length : Int32} {packet next : DataInPacket} {v : NoticeAssistantHandselSong}
    (read : NoticeAssistantHandselSong.read data_length packet = some (v,next)) :
    next.widths.sum ≤ packet.widths.sum + (16 + 521 * v.list.length) := by
  obtain ⟨⟨_,_⟩,first,read⟩ := Option.bind_eq_some_iff.mp read
  obtain ⟨⟨_,middle⟩,second,read⟩ := Option.bind_eq_some_iff.mp read
  obtain ⟨⟨list,_⟩,listed,finish⟩ := Option.bind_eq_some_iff.mp read
  cases finish
  have a := copies_scalar Int64 _ _ _ first
  have b := copies_scalar Int64 _ _ _ second
  have c := copies_count (listNums (data_length - 8 * 2) HANDLESONG_SIZE) middle () _ rfl
  have d := copies_list copies_handleSongInfo _ _ _ _ listed
  have length := readList_length _ _ _ _ _ listed
  have width : Scalar.width Int64 = 8 := rfl
  rw [← length] at d
  show _ ≤ _ + (16 + 521 * list.length)
  omega

theorem sum_lengths (chunks : List (List UInt8)) : (chunks.map List.length).sum = chunks.flatten.length :=
  List.length_flatten.symm

section Kind
variable {packhead : PacketHead} {code : operatorcode} {body : Body}
  (kind : packhead.operate_code = code.value) (cast : Body.casts code body = true)

include kind in
theorem switch_kind : operatorcode.ofValue packhead.operate_code = some code := by
  rw [kind,operatorcode.ofValue_value]

include kind cast

theorem handles_kind (fresh : Int64) : (protocolPack fresh).handles packhead.operate_code = true := by
  simp only [protocolPack,switch_kind kind,Option.any_some]
  cases code with
  | NOTICE_USER_ROBOT_HANDSEL_SONG_SUCCESS => cases body <;> exact cast
  | _ => rfl

theorem casts_kind (fresh : Int64) : (protocolPack fresh).casts packhead.operate_code body = true := by
  simp only [protocolPack,switch_kind kind,Option.any_some]
  exact cast

/-- What a message that came back looked like to the decoder, for every content of unset memory. -/
theorem decoded_of_roundTrips (trips : RoundTrips packhead body) (fresh : Int64) : body.Decoded fresh := by
  obtain ⟨packed,unpacked,packs,unpacks,same,_⟩ := trips fresh (fun _ => 0) (fun _ => 0)
  obtain ⟨packet_operate,data_length,_,middle,next,_,read,nonneg,bounded,_⟩ :=
    read_of_rebuilds (handles_kind kind cast fresh) packs unpacks same
  cases switch : operatorcode.ofValue packet_operate with
  | none =>
    simp only [protocolPack,switch] at read
    cases read
  | some code =>
    simp only [protocolPack,switch] at read
    exact Body.read_decoded fresh code nonneg bounded middle body next read

/-- The widths of a non-empty song list do not add up. -/
theorem list_nil_of_roundTrips {v : NoticeAssistantHandselSong} (same : body = .noticeAssistantHandselSong v)
    (trips : RoundTrips packhead body) : v.list = [] := by
  have sized : PACKET_HEAD_LENGTH + body.size < 2^31 := by
    have decoded := decoded_of_roundTrips kind cast trips 0
    subst same
    exact decoded
  obtain ⟨packed,unpacked,packs,unpacks,rebuilt,widths⟩ := trips 0 (fun _ => 0) (fun _ => 0)
  obtain ⟨out,_,written,packs'⟩ := packStream_writes (fun _ => 0) (handles_kind kind cast 0)
    (casts_kind kind cast 0) sized (body.writes sized) (layout_fits body)
  rw [packs,Option.some.injEq] at packs'
  obtain ⟨packet_operate,data_length,head,middle,next,headed,read,_,_,_,_,_,touched⟩ :=
    read_of_rebuilds (handles_kind kind cast 0) packs unpacks rebuilt
  have copied : next.widths.sum = PACKET_HEAD_LENGTH + (16 + v.list.length * 528) := by
    have total := congrArg List.sum widths
    rw [Unpacked.widths,touched,packs',written,sum_lengths,List.flatten_append,List.length_append,
      length_head] at total
    have body_length : body.layout.flatten.length = body.size := by
      rw [← length_layout body,same]
      rfl
    rw [body_length,same] at total
    refine total.trans ?_
    simp only [Body.size,HANDLESONG_SIZE,MESSAGE_LEN]
    omega
  have start := copies_head _ _ _ headed
  have empty : (received packed.stream fun _ => 0).widths.sum = 0 := rfl
  cases switch : operatorcode.ofValue packet_operate with
  | none =>
    simp only [protocolPack,switch] at read
    cases read
  | some code =>
    simp only [protocolPack,switch] at read
    have struct := Body.read_casts 0 code data_length middle body next read
    subst same
    cases code <;> try exact absurd struct Bool.false_ne_true
    obtain ⟨⟨w,between⟩,listed,finish⟩ := Option.bind_eq_some_iff.mp read
    cases finish
    have list := copies_assistant listed
    apply List.length_eq_zero_iff.mp
    omega

theorem faithful_of_roundTrips (trips : RoundTrips packhead body) :
    body.Faithful ∧ PACKET_HEAD_LENGTH + body.size < 2^31 ∧ (packhead.bare → body.size = 0) := by
  have decoded := decoded_of_roundTrips kind cast trips
  have other (value : Int64) : ∃ fresh : Int64, value ≠ fresh := by
    by_cases zero : value = 0
    · exact ⟨1,by rw [zero]; decide⟩
    · exact ⟨0,zero⟩
  have faithful : body.Faithful := by
    cases body with
    | noticeUserRobotHandselSong v =>
      obtain ⟨fresh,differs⟩ := other v.song_id
      exact differs (decoded fresh)
    | noticeRobotLogin v =>
      apply List.eq_nil_iff_forall_not_mem.mpr
      intro robotinfo member
      obtain ⟨fresh,differs⟩ := other robotinfo.songid
      exact differs (decoded fresh robotinfo member)
    | noticeUserLogin v => exact decoded 0
    | noticeAssistantHandselSong v => exact list_nil_of_roundTrips kind cast rfl trips
    | _ => trivial
  have sized : PACKET_HEAD_LENGTH + body.size < 2^31 := by
    cases body with
    | noticeUserRobotHandselSong v => exact faithful.elim
    | noticeRobotLogin v =>
      have none : v.robot_list = [] := faithful
      simp [Body.size,none,PACKET_HEAD_LENGTH]
    | noticeUserLogin v =>
      simp only [Body.size]
      decide
    | _ => exact decoded 0
  refine ⟨faithful,sized,?_⟩
  obtain ⟨packed,unpacked,packs,unpacks,same,_⟩ := trips 0 (fun _ => 0) (fun _ => 0)
  obtain ⟨_,_,_,_,_,_,_,_,_,_,_,accepts,_⟩ := read_of_rebuilds (handles_kind kind cast 0) packs unpacks same
  exact proper_of_rebuilds (handles_kind kind cast 0) (casts_kind kind cast 0) sized (body.writes sized)
    (layout_fits body) packs accepts

theorem roundTrips_of_faithful (terminated : body.Terminated) (faithful : body.Faithful)
    (sized : PACKET_HEAD_LENGTH + body.size < 2^31) (proper : packhead.bare → body.size = 0) :
    RoundTrips packhead body := by
  intro fresh uninit around
  have reads : Reads ((protocolPack fresh).read packhead.operate_code (Int32.ofNat body.size)) body.layout body := by
    simp only [protocolPack,switch_kind kind]
    exact Body.reads fresh cast terminated sized faithful
  exact rebuilds uninit around (handles_kind kind cast fresh) (casts_kind kind cast fresh) sized proper
    (body.writes sized) (layout_fits body) reads

end Kind

/-- A robot message comes back exactly when its case reads what it writes, the
packet fits an `int32`, and only an empty body is announced as a bare header. -/
theorem robot_roundTrips_iff (packhead : PacketHead) (code : operatorcode) (body : Body)
    (kind : packhead.operate_code = code.value) (cast : Body.casts code body = true)
    (terminated : body.Terminated) :
    RoundTrips packhead body ↔
      body.Faithful ∧ PACKET_HEAD_LENGTH + body.size < 2^31 ∧ (packhead.bare → body.size = 0) := by
  constructor
  · exact faithful_of_roundTrips kind cast
  · rintro ⟨faithful,sized,proper⟩
    exact roundTrips_of_faithful kind cast terminated faithful sized proper

theorem robotLogin_roundTrips : RoundTrips ⟨0,3000,0,7,1,0,42,0⟩ (.robotLogin ⟨10000,5,6⟩) :=
  (robot_roundTrips_iff ⟨0,3000,0,7,1,0,42,0⟩ .ROBOT_LOGIN (.robotLogin ⟨10000,5,6⟩) rfl rfl trivial).mpr
    ⟨trivial,by decide,by decide⟩

/-- A gift of song 7 comes back with whatever song id the new struct held. -/
theorem handselSong_lost :
    ¬ ∀ (packhead : PacketHead) (code : operatorcode) (body : Body), packhead.operate_code = code.value →
      Body.casts code body = true → body.Terminated → RoundTrips packhead body := by
  intro every
  have trips := every ⟨0,1001,0,7,1,0,42,0⟩ .NOTICE_USER_ROBOT_HANDSEL_SONG
    (.noticeUserRobotHandselSong ⟨10000,5,6,7⟩) rfl rfl trivial
  exact (@faithful_of_roundTrips _ .NOTICE_USER_ROBOT_HANDSEL_SONG _ rfl rfl trips).1

end Migfm.Robot
