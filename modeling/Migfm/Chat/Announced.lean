import Migfm.Chat.RoundTrip
import Migfm.Wire.Announced

/-! When PackStream of chat/base/protocol.cc announces what it writes. -/
namespace Migfm.Chat
open Wire Library.LittleEndian

/-- The message as it is sent: of the length of a text an `int32` is left. -/
def Body.cut : Body → Body
  | chatFailed v => chatFailed { v with error_msg := cutText v.error_msg }
  | textChatPrivateSend v => textChatPrivateSend { v with content := cutText v.content }
  | textChatPrivateRecv v => textChatPrivateRecv { v with content := cutText v.content }
  | multiSoundSend v => multiSoundSend { v with sound_path := cutText v.sound_path }
  | multiSoundRecv v => multiSoundRecv { v with sound_path := cutText v.sound_path }
  | multiChatSend v => multiChatSend { v with content := cutText v.content }
  | multiChatRecv v => multiChatRecv { v with content := cutText v.content }
  | body => body

theorem cut_code (body : Body) : body.cut.code = body.code := by
  cases body <;> rfl

theorem cut_write (body : Body) : body.cut.write = body.write := by
  cases body with
  | chatFailed v => simp only [Body.cut,Body.write,ChatFailed.write,writeText_cut]
  | textChatPrivateSend v => simp only [Body.cut,Body.write,TextChatPrivateSend.write,writeText_cut]
  | textChatPrivateRecv v => simp only [Body.cut,Body.write,TextChatPrivateRecv.write,writeText_cut]
  | multiSoundSend v => simp only [Body.cut,Body.write,MultiSoundSend.write,writeText_cut]
  | multiSoundRecv v => simp only [Body.cut,Body.write,MultiSoundRecv.write,writeText_cut]
  | multiChatSend v => simp only [Body.cut,Body.write,MultiChatSend.write,writeText_cut]
  | multiChatRecv v => simp only [Body.cut,Body.write,MultiChatRecv.write,writeText_cut]
  | _ => rfl

theorem cut_size (body : Body) : Int32.ofNat body.cut.size = Int32.ofNat body.size := by
  cases body with
  | chatFailed v => simp only [Body.cut,Body.size,USER_LOGIN_FAILED_SIZE,length_cutText,ofNat_cut]
  | textChatPrivateSend v => simp only [Body.cut,Body.size,TEXTCHATPRIVATESEND_SIZE,length_cutText,ofNat_cut]
  | textChatPrivateRecv v => simp only [Body.cut,Body.size,TEXTCHATPRIVATERECV_SIZE,length_cutText,ofNat_cut]
  | multiSoundSend v => simp only [Body.cut,Body.size,MULTISOUNDSEND_SIZE,length_cutText,ofNat_cut]
  | multiSoundRecv v => simp only [Body.cut,Body.size,MULTISOUNDRECV_SIZE,length_cutText,ofNat_cut]
  | multiChatSend v => simp only [Body.cut,Body.size,MULTICHATSEND_SIZE,length_cutText,ofNat_cut]
  | multiChatRecv v => simp only [Body.cut,Body.size,MULTICHATRECV_SIZE,length_cutText,ofNat_cut]
  | _ => rfl

theorem cut_short (text : List UInt8) : (cutText text).length < 2^32 := by
  rw [length_cutText]
  exact Nat.mod_lt _ (Nat.two_pow_pos 32)

theorem Oppinfo.puts (v : Oppinfo) : Puts v.write v.layout :=
  (puts_scalar _).cons ((puts_scalar _).cons ((puts_array _ (by decide)).cons (puts_array _ (by decide))))

theorem puts_oppositionInfo (v : OppositionInfo) : Puts (Body.oppositionInfo v).write (Body.oppositionInfo v).layout :=
  (puts_scalar _).cons ((puts_scalar _).cons ((puts_scalar _).cons ((puts_scalar _).cons ((puts_scalar _).cons
    ((puts_array _ (by decide)).cons ((puts_array _ (by decide)).cons (puts_list Oppinfo.puts _)))))))

/-- No block of the list case is longer than a url. -/
theorem blocks_oppositionInfo (v : OppositionInfo) : ∀ chunk ∈ (Body.oppositionInfo v).layout, chunk.length ≤ 512 := by
  intro chunk member
  rw [Body.layout,List.mem_append,List.mem_flatMap] at member
  rcases member with fixed | ⟨info,_,field⟩
  · simp only [List.mem_cons,List.not_mem_nil,or_false] at fixed
    rcases fixed with rfl | rfl | rfl | rfl | rfl | rfl | rfl <;> simp only [Scalar.length_encode,Vector.length_toList] <;> decide
  · simp only [Oppinfo.layout,List.mem_cons,List.not_mem_nil,or_false] at field
    rcases field with rfl | rfl | rfl | rfl <;> simp only [Scalar.length_encode,Vector.length_toList] <;> decide

section Kind
variable {packhead : PacketHead} {body : Body} (kind : packhead.operate_code = body.code.value)
include kind

theorem announces_cut : protocolPack.Announces packhead body ↔ protocolPack.Announces packhead body.cut := by
  have kind' : packhead.operate_code = body.cut.code.value := (cut_code body).symm ▸ kind
  exact (announces_congr ((casts_kind kind').trans (casts_kind kind).symm) (cut_size body) (cut_write body)).symm

/-- Only a text or the list makes a packet too long. -/
theorem sized_of_announces (announces : protocolPack.Announces packhead body.cut) : PACKET_HEAD_LENGTH + body.cut.size < 2^31 := by
  have kind' : packhead.operate_code = body.cut.code.value := (cut_code body).symm ▸ kind
  have handled := handles_kind kind'
  cases body with
  | chatFailed v =>
    apply sized_of_text handled (cut_short v.error_msg) _ _ announces
    · intro long
      exact (fails_text long (cut_short v.error_msg)).after
    · exact Nat.add_le_add_right (by decide) (cutText v.error_msg).length
  | textChatPrivateSend v =>
    apply sized_of_text handled (cut_short v.content) _ _ announces
    · intro long
      exact (fails_text long (cut_short v.content)).after.after.after.after.after
    · exact Nat.add_le_add_right (by decide) (cutText v.content).length
  | textChatPrivateRecv v =>
    apply sized_of_text handled (cut_short v.content) _ _ announces
    · intro long
      exact (fails_text long (cut_short v.content)).after.after.after
    · exact Nat.add_le_add_right (by decide) (cutText v.content).length
  | multiSoundSend v =>
    apply sized_of_text handled (cut_short v.sound_path) _ _ announces
    · intro long
      exact (fails_text long (cut_short v.sound_path)).after.after.after.after.after.after
    · exact Nat.add_le_add_right (by decide) (cutText v.sound_path).length
  | multiSoundRecv v =>
    apply sized_of_text handled (cut_short v.sound_path) _ _ announces
    · intro long
      exact (fails_text long (cut_short v.sound_path)).after.after.after
    · exact Nat.add_le_add_right (by decide) (cutText v.sound_path).length
  | multiChatSend v =>
    apply sized_of_text handled (cut_short v.content) _ _ announces
    · intro long
      exact (fails_text long (cut_short v.content)).after.after.after.after.after
    · exact Nat.add_le_add_right (by decide) (cutText v.content).length
  | multiChatRecv v =>
    apply sized_of_text handled (cut_short v.content) _ _ announces
    · intro long
      exact (fails_text long (cut_short v.content)).after.after.after.after
    · exact Nat.add_le_add_right (by decide) (cutText v.content).length
  | oppositionInfo v =>
    by_contra large
    have puts : Puts (protocolPack.write (Body.oppositionInfo v)) (Body.oppositionInfo v).layout := puts_oppositionInfo v
    exact not_announces_of_puts handled puts (blocks_oppositionInfo v) (length_layout _) (Nat.le_of_not_lt large) announces
  | _ => simp only [Body.cut,Body.size]; decide

theorem announces_iff :
    protocolPack.Announces packhead body ↔ PACKET_HEAD_LENGTH + body.cut.size < 2^31 ∧ ¬ packhead.bare := by
  have kind' : packhead.operate_code = body.cut.code.value := (cut_code body).symm ▸ kind
  have exact_ (sized : PACKET_HEAD_LENGTH + body.cut.size < 2^31) : protocolPack.Announces packhead body.cut ↔ ¬ packhead.bare := by
    have length := length_layout body.cut
    refine (announces_iff_exact (handles_kind kind') (casts_kind kind') sized (body.cut.writes sized) (Nat.le_of_eq length)).trans ?_
    simp only [protocolPack,length,body.cut.size_ne_zero,true_and]
  rw [announces_cut kind]
  constructor
  · intro announces
    have sized := sized_of_announces kind announces
    exact ⟨sized,(exact_ sized).mp announces⟩
  · rintro ⟨sized,proper⟩
    exact (exact_ sized).mpr proper

end Kind

end Migfm.Chat
