import Migfm.Chat.Announced
import Migfm.Robot.RoundTrip

/-! When PackStream of robot/base/protocol.cc announces what it writes, and both protocols together. -/
namespace Migfm.Robot
open Wire Library.LittleEndian

/-- The message as it is sent: of the length of a text an `int32` is left. -/
def Body.cut : Body → Body
  | noticeUserDefaultSong v => noticeUserDefaultSong { v with mode := cutText v.mode }
  | noticeUserCurrentSong v => noticeUserCurrentSong { v with mode := cutText v.mode }
  | schedulerLogin v => schedulerLogin { v with machine_id := cutText v.machine_id }
  | body => body

theorem cut_casts (code : operatorcode) (body : Body) : Body.casts code body.cut = Body.casts code body := by
  cases body with
  | noticeUserDefaultSong v => cases code <;> rfl
  | noticeUserCurrentSong v => cases code <;> rfl
  | schedulerLogin v => cases code <;> rfl
  | _ => rfl

theorem cut_write (body : Body) : body.cut.write = body.write := by
  cases body with
  | noticeUserDefaultSong v => simp only [Body.cut,Body.write,writeText_cut]
  | noticeUserCurrentSong v => simp only [Body.cut,Body.write,writeText_cut]
  | schedulerLogin v => simp only [Body.cut,Body.write,writeText_cut]
  | _ => rfl

theorem cut_size (body : Body) : Int32.ofNat body.cut.size = Int32.ofNat body.size := by
  cases body with
  | noticeUserDefaultSong v => simp only [Body.cut,Body.size,NOTICEUSERDEFAULTSONG_SIZE,length_cutText,ofNat_cut]
  | noticeUserCurrentSong v => simp only [Body.cut,Body.size,NOTICEUSERCURRENTSONG_SIZE,length_cutText,ofNat_cut]
  | schedulerLogin v => simp only [Body.cut,Body.size,SCHEDULER_LOGIN_SIZE,length_cutText,ofNat_cut]
  | _ => rfl

theorem RobotInfo.puts (v : RobotInfo) : Puts v.write v.layout :=
  (puts_scalar _).cons ((puts_scalar _).cons ((puts_scalar _).cons (puts_array _ (by decide))))

theorem HandleSongInfo.puts (v : HandleSongInfo) : Puts v.write v.layout :=
  (puts_scalar _).cons ((puts_scalar _).cons (puts_array _ (by decide)))

theorem blocks_robotInfo (v : RobotInfo) : ∀ chunk ∈ v.layout, chunk.length ≤ 512 := by
  intro chunk member
  have part := (List.sublist_flatten_of_mem member).length_le
  rw [length_robotInfo,ROBOTINFO_SIZE,NICKNAME_LEN] at part
  omega

/-- A message is as long as a block may be. -/
theorem blocks_handleSongInfo (v : HandleSongInfo) : ∀ chunk ∈ v.layout, chunk.length ≤ 512 := by
  intro chunk member
  simp only [HandleSongInfo.layout,List.mem_cons,List.not_mem_nil,or_false] at member
  rcases member with rfl | rfl | rfl <;> simp only [Scalar.length_encode,Vector.length_toList] <;> decide

/-- The 8 bytes that the two doubles of NOTICE_USER_LOGIN have over two `int32`. -/
theorem gap_iff {code : operatorcode} {body : Body} (cast : Body.casts code body = true) :
    body.cut.layout.flatten.length = body.cut.size ↔ code ≠ .NOTICE_USER_LOGIN := by
  have total := length_layout body.cut
  cases body with
  | noticeUserLogin v =>
    have differs : (Body.noticeUserLogin v).cut.layout.flatten.length ≠ (Body.noticeUserLogin v).cut.size := by
      simp only [Body.cut] at total ⊢
      omega
    cases code <;> try exact absurd cast Bool.false_ne_true
    simp only [differs,ne_eq,not_true_eq_false]
  | _ =>
    cases code <;> try exact absurd cast Bool.false_ne_true
    all_goals exact iff_of_true total (by decide)

section Kind
variable {packhead : PacketHead} {code : operatorcode} {body : Body} (kind : packhead.operate_code = code.value)
  (cast : Body.casts code body = true) (fresh : Int64)
include kind cast

theorem announces_cut : (protocolPack fresh).Announces packhead body ↔ (protocolPack fresh).Announces packhead body.cut := by
  have cast' : Body.casts code body.cut = true := (cut_casts code body).trans cast
  have same := (casts_kind kind cast' fresh).trans (casts_kind kind cast fresh).symm
  exact (announces_congr same (cut_size body) (cut_write body)).symm

/-- Only a text or a list makes a packet too long. -/
theorem sized_of_announces (announces : (protocolPack fresh).Announces packhead body.cut) :
    PACKET_HEAD_LENGTH + body.cut.size < 2^31 := by
  have handled := handles_kind kind cast fresh
  cases body with
  | noticeUserDefaultSong v =>
    apply sized_of_text handled (Chat.cut_short v.mode) _ _ announces
    · intro long
      exact (fails_text long (Chat.cut_short v.mode)).after.after.after.after
    · exact Nat.add_le_add_right (by decide) (cutText v.mode).length
  | noticeUserCurrentSong v =>
    apply sized_of_text handled (Chat.cut_short v.mode) _ _ announces
    · intro long
      exact (fails_text long (Chat.cut_short v.mode)).after.after.after.after
    · exact Nat.add_le_add_right (by decide) (cutText v.mode).length
  | schedulerLogin v =>
    apply sized_of_text handled (Chat.cut_short v.machine_id) _ _ announces
    · intro long
      exact (fails_text long (Chat.cut_short v.machine_id)).after
    · exact Nat.add_le_add_right (by decide) (cutText v.machine_id).length
  | noticeRobotLogin v =>
    by_contra large
    have puts : Puts ((protocolPack fresh).write (Body.noticeRobotLogin v)) (Body.noticeRobotLogin v).layout :=
      (puts_scalar _).cons (puts_list RobotInfo.puts _)
    have blocks : ∀ chunk ∈ (Body.noticeRobotLogin v).layout, chunk.length ≤ 512 := by
      intro chunk member
      rw [Body.layout,List.mem_cons,List.mem_flatMap] at member
      rcases member with rfl | ⟨info,_,field⟩
      · rw [Scalar.length_encode]
        decide
      · exact blocks_robotInfo info chunk field
    exact not_announces_of_puts handled puts blocks (length_layout (.noticeRobotLogin v)) (Nat.le_of_not_lt large) announces
  | noticeAssistantHandselSong v =>
    by_contra large
    have puts : Puts ((protocolPack fresh).write (Body.noticeAssistantHandselSong v)) (Body.noticeAssistantHandselSong v).layout :=
      (puts_scalar _).cons ((puts_scalar _).cons (puts_list HandleSongInfo.puts _))
    have blocks : ∀ chunk ∈ (Body.noticeAssistantHandselSong v).layout, chunk.length ≤ 512 := by
      intro chunk member
      rw [Body.layout,List.mem_cons,List.mem_cons,List.mem_flatMap] at member
      rcases member with rfl | rfl | ⟨info,_,field⟩
      · rw [Scalar.length_encode]
        decide
      · rw [Scalar.length_encode]
        decide
      · exact blocks_handleSongInfo info chunk field
    exact not_announces_of_puts handled puts blocks (length_layout (.noticeAssistantHandselSong v)) (Nat.le_of_not_lt large) announces
  | _ => simp only [Body.cut,Body.size]; decide

theorem announces_iff : (protocolPack fresh).Announces packhead body ↔
    code ≠ .NOTICE_USER_LOGIN ∧ PACKET_HEAD_LENGTH + body.cut.size < 2^31 ∧ (packhead.bare → body.cut.size = 0) := by
  have cast' : Body.casts code body.cut = true := (cut_casts code body).trans cast
  have exact_ (sized : PACKET_HEAD_LENGTH + body.cut.size < 2^31) : (protocolPack fresh).Announces packhead body.cut ↔
      code ≠ .NOTICE_USER_LOGIN ∧ (packhead.bare → body.cut.size = 0) := by
    rw [← gap_iff cast]
    exact announces_iff_exact (handles_kind kind cast' fresh) (casts_kind kind cast' fresh) sized (body.cut.writes sized) (layout_fits _)
  rw [announces_cut kind cast fresh]
  constructor
  · intro announces
    have sized := sized_of_announces kind cast fresh announces
    obtain ⟨whole,proper⟩ := (exact_ sized).mp announces
    exact ⟨whole,sized,proper⟩
  · rintro ⟨whole,sized,proper⟩
    exact (exact_ sized).mpr ⟨whole,proper⟩

end Kind

/-- In both protocols the announced length is that of the bytes, but for a bare head, a packet that no `int32` measures,
and the robots' NOTICE_USER_LOGIN. -/
theorem packStream_announces_iff (packhead : PacketHead) (message : Chat.Body) (code : operatorcode) (body : Body) (fresh : Int64) :
    (packhead.operate_code = message.code.value → (Chat.protocolPack.Announces packhead message ↔
      PACKET_HEAD_LENGTH + message.cut.size < 2^31 ∧ ¬ packhead.bare)) ∧
    (packhead.operate_code = code.value → Body.casts code body = true → ((protocolPack fresh).Announces packhead body ↔
      code ≠ .NOTICE_USER_LOGIN ∧ PACKET_HEAD_LENGTH + body.cut.size < 2^31 ∧ (packhead.bare → body.cut.size = 0))) := by
  constructor
  · intro kind
    exact Chat.announces_iff kind
  · intro kind cast
    exact announces_iff kind cast fresh

theorem packStream_announces_quit_login :
    Chat.protocolPack.Announces ⟨0,Chat.operatorcode.USER_NOTIFICATION_QUIT.value,0,7,1,0,42,0⟩ (.userQuitNotification ⟨10000,5⟩) ∧
    (protocolPack 0).Announces ⟨0,3000,0,7,1,0,42,0⟩ (.robotLogin ⟨10000,5,6⟩) :=
  ⟨((packStream_announces_iff _ (.userQuitNotification ⟨10000,5⟩) .HEART_PACKET .heart 0).1 rfl).mpr ⟨by decide,by decide⟩,
    ((packStream_announces_iff ⟨0,3000,0,7,1,0,42,0⟩ (.userQuitNotification ⟨10000,5⟩) .ROBOT_LOGIN (.robotLogin ⟨10000,5,6⟩) 0).2
      rfl rfl).mpr ⟨by decide,by decide,by decide⟩⟩

/-- A login of user 5 at (30,120) announces 63 bytes and writes 55. -/
theorem login_sends_unwritten :
    ¬ ∀ (packhead : PacketHead) (code : operatorcode) (body : Body) (fresh : Int64), packhead.operate_code = code.value →
      Body.casts code body = true → (protocolPack fresh).Announces packhead body := by
  intro every
  have announces := every ⟨0,4000,0,7,1,0,42,0⟩ .NOTICE_USER_LOGIN (.noticeUserLogin ⟨10000,5,30,120⟩) 0 rfl rfl
  have whole := (@announces_iff _ .NOTICE_USER_LOGIN _ rfl rfl 0).mp announces
  exact whole.1 rfl

end Migfm.Robot
