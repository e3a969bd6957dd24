import Migfm.Library.Runs
import Migfm.Net.Receive

/-! Whole frames out of a byte stream. However the stream is cut, the frames
handed over are those received completely, unless the length of a dropped block
reads as 0. -/
namespace Migfm.Net
open Library.LittleEndian Library.Words Library.Runs

/-- The bytes of a list of answers. -/
def stream : List Answer → List UInt8
  | [] => []
  | .again::answers => stream answers
  | .data bytes _::answers => bytes ++ stream answers

/-- Of the frames sent, those whose last byte is among the first `n`. -/
def received : List (List UInt8) → Nat → List (List UInt8)
  | [], _ => []
  | frame::frames, n => if frame.length ≤ n then frame :: received frames (n - frame.length) else []

/-- The first four bytes are the length of the frame. -/
def Framed (frame : List UInt8) : Prop := 5 ≤ frame.length ∧ (word frame).toInt = frame.length

/-- What `recv` promises of an answer. -/
def Served (conn : EchoConn) : Answer → Prop
  | .again => True
  | .data bytes _ => bytes ≠ [] ∧ bytes.length ≤ conn.psc_rx_size.toInt

/-- No block is dropped whose length then reads as 0. -/
def Spared (conn : EchoConn) : Answer → Prop
  | .again => True
  | .data bytes stale => conn.Drops bytes.length → stale ≠ 0

/-! ### The first frame of the stream -/

section First
variable {frame held bytes rest : List UInt8} {frames : List (List UInt8)} (framed : Framed frame)
include framed

theorem word_first (delivered : held ++ rest <+: frame ++ frames.flatten) (enough : 4 ≤ held.length) :
    word held = word frame := by
  have whole := framed.1
  have first : held <+: frame ++ frames.flatten := (List.prefix_append held rest).trans delivered
  obtain ⟨more,same⟩ := first
  have left : (held ++ more).take 4 = held.take 4 := List.take_append_of_le_length enough
  have right : (frame ++ frames.flatten).take 4 = frame.take 4 := List.take_append_of_le_length (by omega)
  rw [word,word,← left,same,right]

theorem finishes_iff (delivered : held ++ bytes ++ rest <+: frame ++ frames.flatten) :
    Finishes held bytes ↔ 4 ≤ held.length ∧ (held ++ bytes).length = frame.length := by
  have grouped : held ++ (bytes ++ rest) <+: frame ++ frames.flatten := by
    rw [← List.append_assoc]
    exact delivered
  constructor
  · rintro ⟨enough,exact⟩
    rw [word_first framed grouped enough,framed.2] at exact
    exact ⟨enough,by omega⟩
  · rintro ⟨enough,same⟩
    refine ⟨enough,?_⟩
    rw [word_first framed grouped enough,framed.2,same]

/-- What `recv` brought stays within the frame. -/
theorem stays_open {conn : EchoConn} (inv : conn.Inv held) (window : bytes.length ≤ conn.psc_rx_size.toInt)
    (delivered : held ++ bytes ++ rest <+: frame ++ frames.flatten) (unfinished : ¬Finishes held bytes) :
    (held ++ bytes).length < frame.length := by
  obtain ⟨word_end,frame_end⟩ := window_frame inv
  have wide := framed.1
  have total : (held ++ bytes).length = held.length + bytes.length := List.length_append
  by_cases enough : 4 ≤ held.length
  · have grouped : held ++ (bytes ++ rest) <+: frame ++ frames.flatten := by
      rw [← List.append_assoc]
      exact delivered
    have ends := frame_end enough
    rw [word_first framed grouped enough,framed.2] at ends
    have apart : (held ++ bytes).length ≠ frame.length := fun same =>
      unfinished ((finishes_iff framed delivered).mpr ⟨enough,same⟩)
    omega
  · have ends := word_end (by omega)
    omega

omit framed in
theorem first_complete (delivered : held ++ bytes ++ rest <+: frame ++ frames.flatten)
    (same : (held ++ bytes).length = frame.length) : held ++ bytes = frame ∧ rest <+: frames.flatten := by
  obtain ⟨more,equal⟩ := delivered
  rw [List.append_assoc (held ++ bytes)] at equal
  obtain ⟨first,others⟩ := List.append_inj equal same
  exact ⟨first,⟨more,others⟩⟩

end First

/-! ### A run -/

theorem first_long {frames : List (List UInt8)} (framed : ∀ frame ∈ frames, Framed frame) (frame : List UInt8)
    (first : frame ∈ frames.head?) : ([] : List UInt8).length < frame.length := by
  have wide := (framed frame (List.mem_of_mem_head? first)).1
  exact Nat.lt_of_lt_of_le (by decide) wide

theorem received_open {frames : List (List UInt8)} {n : Nat} (short : ∀ frame ∈ frames.head?, n < frame.length) :
    received frames n = [] := by
  cases frames with
  | nil => rfl
  | cons frame frames =>
    have below := short frame rfl
    rw [received,if_neg (Nat.not_le_of_lt below)]

/-- From the middle of a frame on. -/
theorem reassembles_from {frames : List (List UInt8)} {answers : List Answer} {conn : EchoConn} {held : List UInt8}
    (framed : ∀ frame ∈ frames, Framed frame) (inv : conn.Inv held)
    (open_frame : ∀ frame ∈ frames.head?, held.length < frame.length)
    (delivered : held ++ stream answers <+: frames.flatten) (served : Along receive Served conn answers) :
    (∃ final, run receive conn answers = some final ∧
        final.tasks = conn.tasks ++ received frames (held ++ stream answers).length) ↔
      Along receive Spared conn answers := by
  induction answers generalizing frames conn held with
  | nil =>
    refine ⟨fun _ => trivial,fun _ => ⟨conn,rfl,?_⟩⟩
    rw [stream,List.append_nil,received_open open_frame,List.append_nil]
  | cons answer answers ih =>
    cases answer with
    | again =>
      have continues := ih framed inv open_frame delivered (served.2 conn rfl)
      refine continues.trans ⟨fun spared => ⟨trivial,?_⟩,fun spared => spared.2 conn rfl⟩
      rintro next outcome
      cases outcome
      exact spared
    | data bytes stale =>
      obtain ⟨⟨arrived,window⟩,later⟩ := served
      rw [stream,← List.append_assoc] at delivered
      match frames with
      | [] =>
        have none := List.prefix_nil.mp delivered
        exact absurd (List.append_eq_nil_iff.mp (List.append_eq_nil_iff.mp none).1).2 arrived
      | frame::frames =>
        have first := framed frame List.mem_cons_self
        have others : ∀ frame ∈ frames, Framed frame := fun other member => framed other (List.mem_cons_of_mem _ member)
        have word_wide (_ : held.length < 4) (enough : 4 ≤ (held ++ bytes).length) :
            5 ≤ (word (held ++ bytes)).toInt := by
          rw [word_first first delivered enough,first.2]
          exact_mod_cast first.1
        by_cases dead : conn.Drops bytes.length ∧ stale = 0
        · obtain ⟨drops,rfl⟩ := dead
          have fault := receive_stale inv window drops
          refine ⟨?_,fun spared => absurd rfl (spared.1 drops)⟩
          rintro ⟨final,outcome,_⟩
          rw [run,fault] at outcome
          exact absurd outcome (by simp)
        · have alive : conn.Drops bytes.length → stale ≠ 0 := fun drops zero => dead ⟨drops,zero⟩
          obtain ⟨next,outcome,finished,unfinished⟩ := receive_data inv window arrived word_wide alive
          have spared_iff : Along receive Spared conn (.data bytes stale :: answers) ↔
              Along receive Spared next answers := by
            refine ⟨fun spared => spared.2 next outcome,fun spared => ⟨alive,?_⟩⟩
            rintro other same
            rw [outcome] at same
            cases same
            exact spared
          rw [spared_iff,run,outcome,Option.bind_some,stream,← List.append_assoc]
          by_cases finishes : Finishes held bytes
          · obtain ⟨tasks,inv'⟩ := finished finishes
            obtain ⟨whole,rest⟩ := first_complete delivered ((finishes_iff first delivered).mp finishes).2
            rw [← ih others inv' (first_long others) rest (later next outcome),tasks,whole,received,List.length_append,
              if_pos (Nat.le_add_right _ _),Nat.add_sub_cancel_left,List.append_assoc]
            rfl
          · obtain ⟨tasks,inv'⟩ := unfinished finishes
            have short (other : List UInt8) (member : other ∈ (frame::frames).head?) :
                (held ++ bytes).length < other.length := by
              cases member
              exact stays_open first inv window delivered finishes
            rw [← ih framed inv' short delivered (later next outcome),tasks]

/-- The buffers handed over are the frames received completely, in order and
byte for byte, exactly when no dropped block reads as a block of length 0. -/
theorem reassembles_iff (frames : List (List UInt8)) (framed : ∀ frame ∈ frames, Framed frame)
    (answers : List Answer) (delivered : stream answers <+: frames.flatten)
    (served : Along receive Served EchoConn.start answers) :
    (∃ final, run receive EchoConn.start answers = some final ∧
        final.tasks = received frames (stream answers).length) ↔
      Along receive Spared EchoConn.start answers :=
  reassembles_from framed start_inv (first_long framed) delivered served

/-- A frame of five bytes in two answers. -/
def shortAnswers : List Answer := [.data [5,0,0,0] 1,.again,.data [9] 1]

theorem short_reassembled :
    ∃ final, run receive EchoConn.start shortAnswers = some final ∧ final.tasks = [[5,0,0,0,9]] := by
  have framed : ∀ frame ∈ [([5,0,0,0,9] : List UInt8)], Framed frame := by
    intro frame member
    rw [List.mem_singleton.mp member]
    exact ⟨by decide,by decide⟩
  have served : Along receive Served EchoConn.start shortAnswers := by
    refine ⟨⟨by decide,by decide⟩,?_⟩
    rintro next outcome
    cases outcome
    refine ⟨trivial,?_⟩
    rintro next outcome
    cases outcome
    exact ⟨⟨by decide,by decide⟩,fun _ _ => trivial⟩
  have spared : Along receive Spared EchoConn.start shortAnswers :=
    ⟨fun _ => by decide,fun _ _ => ⟨trivial,fun _ _ => ⟨fun _ => by decide,fun _ _ => trivial⟩⟩⟩
  exact (reassembles_iff [[5,0,0,0,9]] framed shortAnswers (by decide) served).mpr spared

/-- A frame that fills the first block, in two answers. -/
def fullFrame : List UInt8 := [0,16,0,0] ++ List.replicate 4092 7

def fullAnswers : List Answer := [.data [0,16,0,0] 0,.data (List.replicate 4092 7) 0]

theorem fullFrame_framed : Framed fullFrame := by
  refine ⟨?_,?_⟩
  · rw [fullFrame,List.length_append,List.length_replicate]
    decide
  · rw [fullFrame,List.length_append,List.length_replicate]
    decide

theorem full_header :
    ∃ next, receive EchoConn.start (.data [0,16,0,0] 0) = some next ∧ next.Inv [0,16,0,0] ∧
      next.psc_rx_size = 4092 ∧ next.Drops 4092 := by
  have found : ∃ next, receive EchoConn.start (.data [0,16,0,0] 0) = some next ∧
      next.psc_rx_size = 4092 ∧ next.Drops 4092 := ⟨_,rfl,by decide,rfl,by decide,by decide⟩
  obtain ⟨next,outcome,size,drops⟩ := found
  obtain ⟨other,outcome',_,inv⟩ := @receive_header _ _ [0,16,0,0] start_inv (by decide) (by decide) rfl (by decide) 0
  rw [outcome] at outcome'
  cases outcome'
  exact ⟨next,outcome,inv,size,drops⟩

theorem fullFrame_lost :
    Framed fullFrame ∧ stream fullAnswers = fullFrame ∧ Along receive Served EchoConn.start fullAnswers ∧
      ¬∃ final, run receive EchoConn.start fullAnswers = some final ∧
        final.tasks = received [fullFrame] (stream fullAnswers).length := by
  obtain ⟨next,outcome,inv,size,drops⟩ := full_header
  have window : (List.replicate 4092 (7 : UInt8)).length ≤ next.psc_rx_size.toInt := by
    rw [size,List.length_replicate]
    decide
  have fault := receive_stale inv window (by rw [List.length_replicate]; exact drops)
  refine ⟨fullFrame_framed,?_,⟨⟨by decide,by decide⟩,?_⟩,?_⟩
  · rw [fullAnswers,stream,stream,stream,List.append_nil,fullFrame]
  · rintro other same
    rw [outcome] at same
    cases same
    refine ⟨⟨List.ne_nil_of_length_pos ?_,window⟩,fun _ _ => trivial⟩
    rw [List.length_replicate]
    decide
  · rintro ⟨final,reached,_⟩
    rw [fullAnswers,run,outcome,Option.bind_some,run,fault] at reached
    exact absurd reached (by simp)

end Migfm.Net
