import Migfm.Chat.SendFull
import Migfm.Chat.RoundTrip
import Migfm.Robot.RoundTrip
import Migfm.Net.Reassembly

/-! A connection from end to end: `SendMessage` of the handler threads at one end, the receive path of
core/network.c and `UnpackStream` at the other. Between them the socket gives the bytes it accepted, in their order
and in pieces of any length. -/
namespace Migfm.System
open Library.Runs Net
open Wire hiding received
open Chat.SendFull (Socket Sending accepted_update)

structure Call (Body : Type) where
  packhead : PacketHead
  body : Body

/-- `taken` bytes of the wire have been received. The last three fields are the history: the calls in their order, the
call that a thread made last, and the calls whose frames the socket has accepted. -/
structure Link (Body : Type) where
  socket : Socket
  conn : EchoConn
  taken : Nat
  calls : List (Call Body)
  last : Nat → Option Nat
  line : List Nat

variable {Body : Type}

def Link.start : Link Body := ⟨.start,.start,0,[],fun _ => none,[]⟩

inductive Event (Body : Type)
  | sendMessage (thread : Nat) (call : Call Body) (uninit : Nat → UInt8)
  | send (thread : Nat) (amt : Option Nat)
  | recv (n : Nat) (stale : Int32)

/-- What `recv` finds if it is given `n` bytes. -/
def Link.piece (link : Link Body) (n : Nat) : List UInt8 := (link.socket.wire.drop link.taken).take n

def Link.step (dialect : Dialect Body) (link : Link Body) : Event Body → Option (Link Body)
  | .sendMessage thread call uninit =>
    match dialect.packStream uninit call.packhead call.body with
    | none => none
    | some packed =>
      if packed.ok = false then some link
      else (link.socket.step (.sendMessage thread packed.stream)).map fun socket =>
        { link with
          socket
          calls := link.calls ++ [call]
          last := Function.update link.last thread (some link.calls.length) }
  | .send thread amt =>
    (link.socket.step (.send thread amt)).map fun socket =>
      { link with
        socket
        line := if amt.isSome ∧ socket.thread thread = none then link.line ++ (link.last thread).toList else link.line }
  | .recv n stale =>
    if 0 < n ∧ n ≤ link.conn.psc_rx_size.toInt ∧ n ≤ (link.socket.wire.drop link.taken).length then
      (receive link.conn (.data (link.piece n) stale)).map fun conn => { link with conn,taken := link.taken + n }
    else none

/-- The frame of a call. -/
def Link.frame (link : Link Body) (id : Nat) : List UInt8 := link.socket.frames.reverse.getD id []

/-- What the peer's `UnpackStream` must make of a frame, whatever lies around it. -/
def Call.Comes (dialect : Dialect Body) (call : Call Body) (packet_stream : List UInt8) : Prop :=
  ∀ around, ∃ unpacked rebuilt, dialect.unpackStream around packet_stream = some unpacked ∧ unpacked.ok = true ∧
    unpacked.packet = some (rebuilt,call.body) ∧
    rebuilt = { call.packhead with packet_length := rebuilt.packet_length,data_length := rebuilt.data_length }

/-- The condition on a step: a message of a kind that comes back, no send in the middle of another thread's frame, no
frame given up in the middle, and no dropped block whose length reads as 0. -/
def Link.Meets (good : Call Body → Prop) (link : Link Body) : Event Body → Prop
  | .sendMessage _ call _ => good call
  | .send thread amt => link.socket.Orderly (.send thread amt)
  | .recv n stale => Spared link.conn (.data (link.piece n) stale)

/-! ### The sending end -/

/-- The socket has the whole frames of distinct calls and what it accepted of one more. -/
structure Link.Sends (dialect : Dialect Body) (link : Link Body) : Prop where
  counted : link.socket.frames.length = link.calls.length
  comes : ∀ id call, link.calls[id]? = some call → call.Comes dialect (link.frame id) ∧ Framed (link.frame id)
  called : ∀ thread sending, link.socket.thread thread = some sending → sending.total < sending.buffer.length ∧
    ∃ id, link.last thread = some id ∧ id < link.calls.length ∧ id ∉ link.line ∧ sending.buffer = link.frame id
  apart : ∀ thread other, link.socket.thread thread ≠ none → link.socket.thread other ≠ none →
    link.last thread = link.last other → thread = other
  known : ∀ id ∈ link.line, id < link.calls.length
  distinct : link.line.Nodup
  wire : ∃ thread, link.socket.wire = (link.line.map link.frame).flatten ++ link.socket.accepted thread ∧
    ∀ other, other ≠ thread → link.socket.accepted other = []

section Sending
variable {dialect : Dialect Body} {link next : Link Body} {good : Call Body → Prop}

theorem comes_of_roundTrips {call : Call Body} {uninit : Nat → UInt8} {packed : Packed}
    (trips : dialect.RoundTrips call.packhead call.body) (packs : dialect.packStream uninit call.packhead call.body = some packed) :
    call.Comes dialect packed.stream ∧ Framed packed.stream := by
  have back (around : Int → UInt8) : ∃ unpacked, dialect.unpackStream around packed.stream = some unpacked ∧
      Rebuilds call.packhead call.body packed unpacked := by
    obtain ⟨same,unpacked,packs',unpacks,rebuilds⟩ := trips uninit around
    cases packs.symm.trans packs'
    exact ⟨unpacked,unpacks,rebuilds⟩
  constructor
  · intro around
    obtain ⟨unpacked,unpacks,rebuilds⟩ := back around
    obtain ⟨rebuilt,packet,head,_⟩ := rebuilds.same
    exact ⟨unpacked,rebuilt,unpacks,rebuilds.unpacks,packet,head⟩
  · obtain ⟨unpacked,unpacks,rebuilds⟩ := back fun _ => 0
    have accepts : headerAccepts packed.stream = true := by
      cases check : headerAccepts packed.stream with
      | true => rfl
      | false =>
        rw [Dialect.unpackStream,check] at unpacks
        cases unpacks
        cases rebuilds.unpacks
    obtain ⟨long,whole,_⟩ := (headerAccepts_iff packed.stream).mp accepts
    exact ⟨Nat.le_trans (by decide) long,whole⟩

theorem Link.Sends.map_frame (sends : link.Sends dialect) (same : ∀ id < link.calls.length, next.frame id = link.frame id) :
    link.line.map next.frame = link.line.map link.frame :=
  List.map_congr_left fun id member => same id (sends.known id member)

/-- A thread begins with a new frame. -/
theorem Link.Sends.enter (sends : link.Sends dialect) {thread : Nat} (idle : link.socket.thread thread = none) {call : Call Body}
    {packet_stream : List UInt8} (comes : call.Comes dialect packet_stream) (framed : Framed packet_stream) :
    Link.Sends dialect { link with
      socket := { link.socket with
        frames := packet_stream::link.socket.frames
        thread := Function.update link.socket.thread thread (some ⟨packet_stream,0⟩) }
      calls := link.calls ++ [call]
      last := Function.update link.last thread (some link.calls.length) } := by
  generalize made : Link.mk _ _ _ _ _ _ = next
  have sockets : next.socket = { link.socket with
      frames := packet_stream::link.socket.frames
      thread := Function.update link.socket.thread thread (some ⟨packet_stream,0⟩) } := by rw [← made]
  have calls : next.calls = link.calls ++ [call] := by rw [← made]
  have last : next.last = Function.update link.last thread (some link.calls.length) := by rw [← made]
  have line : next.line = link.line := by rw [← made]
  have length : link.socket.frames.reverse.length = link.calls.length := by rw [List.length_reverse,sends.counted]
  have old (id : Nat) (known : id < link.calls.length) : next.frame id = link.frame id := by
    rw [Link.frame,sockets,List.reverse_cons,List.getD_eq_getElem?_getD,List.getElem?_append_left (length.symm ▸ known),
      ← List.getD_eq_getElem?_getD,Link.frame]
  have new : next.frame link.calls.length = packet_stream := by
    rw [Link.frame,sockets,List.reverse_cons,← length,List.getD_eq_getElem?_getD,List.getElem?_concat_length]
    rfl
  have accepted (other : Nat) : next.socket.accepted other = link.socket.accepted other := by
    rw [sockets,accepted_update]
    split
    · rename_i same
      rw [same,Socket.accepted,idle]
      rfl
    · rfl
  have elsewhere {other : Nat} (apart : other ≠ thread) : next.socket.thread other = link.socket.thread other := by
    rw [sockets]
    exact Function.update_of_ne apart ..
  have here : next.socket.thread thread = some ⟨packet_stream,0⟩ := by
    rw [sockets]
    exact Function.update_self ..
  have before {other : Nat} (busy : link.socket.thread other ≠ none) : link.last other ≠ some link.calls.length := by
    obtain ⟨sending,found⟩ := Option.ne_none_iff_exists'.mp busy
    obtain ⟨_,id,named,known,_⟩ := sends.called other sending found
    rw [named]
    exact fun same => absurd (Option.some_inj.mp same) known.ne
  refine ⟨?_,?_,?_,?_,?_,?_,?_⟩
  · rw [sockets,calls,List.length_cons,sends.counted,List.length_append]
    rfl
  · intro id named found
    rw [calls,List.getElem?_append] at found
    split at found
    · rename_i known
      rw [old id known]
      exact sends.comes id named found
    · rename_i known
      have same : id = link.calls.length := by
        have bound := (List.getElem?_eq_some_iff.mp found).1
        rw [List.length_singleton] at bound
        omega
      rw [same,Nat.sub_self] at found
      cases found
      rw [same,new]
      exact ⟨comes,framed⟩
  · intro other sending found
    by_cases same : other = thread
    · subst same
      cases here.symm.trans found
      refine ⟨Nat.lt_of_lt_of_le (Nat.succ_pos 4) framed.1,link.calls.length,?_,?_,?_,new.symm⟩
      · rw [last,Function.update_self]
      · rw [calls,List.length_append]
        exact Nat.lt_succ_self _
      · rw [line]
        exact fun member => (sends.known _ member).ne rfl
    · rw [elsewhere same] at found
      obtain ⟨short,id,named,known,fresh,frame⟩ := sends.called other sending found
      refine ⟨short,id,?_,?_,line ▸ fresh,frame.trans (old id known).symm⟩
      · rw [last,Function.update_of_ne same]
        exact named
      · rw [calls,List.length_append]
        exact known.trans_le (Nat.le_add_right ..)
  · intro one other busy busy' same
    rw [last] at same
    by_cases first : one = thread
    · by_cases second : other = thread
      · rw [first,second]
      · rw [elsewhere second] at busy'
        rw [first,Function.update_self,Function.update_of_ne second] at same
        exact absurd same.symm (before busy')
    · rw [elsewhere first] at busy
      by_cases second : other = thread
      · rw [second,Function.update_self,Function.update_of_ne first] at same
        exact absurd same (before busy)
      · rw [elsewhere second] at busy'
        rw [Function.update_of_ne first,Function.update_of_ne second] at same
        exact sends.apart one other busy busy' same
  · intro id member
    rw [line] at member
    rw [calls,List.length_append]
    exact (sends.known id member).trans_le (Nat.le_add_right ..)
  · rw [line]
    exact sends.distinct
  · obtain ⟨owner,wire,others⟩ := sends.wire
    refine ⟨owner,?_,fun other apart => (accepted other).trans (others other apart)⟩
    rw [line,sends.map_frame old,accepted owner,← wire,sockets]

theorem Link.Sends.sendMessage (sends : link.Sends dialect) {thread : Nat} {call : Call Body} {uninit : Nat → UInt8}
    (trips : dialect.RoundTrips call.packhead call.body)
    (outcome : link.step dialect (.sendMessage thread call uninit) = some next) : next.Sends dialect := by
  simp only [Link.step] at outcome
  split at outcome
  · cases outcome
  · rename_i packed packs
    split_ifs at outcome
    · cases outcome
      exact sends
    · obtain ⟨comes,framed⟩ := comes_of_roundTrips trips packs
      obtain ⟨socket,called,rfl⟩ := Option.map_eq_some_iff.mp outcome
      simp only [Socket.step] at called
      split at called
      · cases called
      · rename_i idle
        split at called
        · cases called
        · cases called
          exact sends.enter idle comes framed

/-- A thread that has sent nothing of its frame gives up. -/
theorem Link.Sends.giveUp (sends : link.Sends dialect) {thread : Nat} (nothing : link.socket.accepted thread = []) :
    Link.Sends dialect { link with
      socket := { link.socket with thread := Function.update link.socket.thread thread none } } := by
  have accepted (other : Nat) : Socket.accepted { link.socket with thread := Function.update link.socket.thread thread none } other =
      link.socket.accepted other := by
    rw [accepted_update]
    split
    · rename_i same
      rw [same,nothing]
      rfl
    · rfl
  have busy {other : Nat} {sending : Sending} (found : Function.update link.socket.thread thread none other = some sending) :
      link.socket.thread other = some sending := by
    rw [Function.update_apply] at found
    split at found
    · cases found
    · exact found
  refine ⟨sends.counted,sends.comes,?_,?_,sends.known,sends.distinct,?_⟩
  · intro other sending found
    exact sends.called other sending (busy found)
  · intro one other first second
    obtain ⟨sending,found⟩ := Option.ne_none_iff_exists'.mp first
    obtain ⟨sending',found'⟩ := Option.ne_none_iff_exists'.mp second
    refine sends.apart one other ?_ ?_
    · rw [busy found]
      exact Option.some_ne_none sending
    · rw [busy found']
      exact Option.some_ne_none sending'
  · obtain ⟨owner,wire,others⟩ := sends.wire
    exact ⟨owner,wire.trans (congrArg _ (accepted owner).symm),fun other apart => (accepted other).trans (others other apart)⟩

/-- The frame that a thread sends part of is the one in the middle of which the wire is. -/
theorem Link.Sends.owner (sends : link.Sends dialect) {thread : Nat} (quiet : ∀ other, other ≠ thread → link.socket.accepted other = []) :
    link.socket.wire = (link.line.map link.frame).flatten ++ link.socket.accepted thread := by
  obtain ⟨owner,wire,others⟩ := sends.wire
  by_cases same : owner = thread
  · rw [wire,same]
  · rw [wire,quiet owner same,others thread (Ne.symm same)]

/-- More of a frame is accepted, but not all of it. -/
theorem Link.Sends.advance (sends : link.Sends dialect) {thread n : Nat} {sending : Sending}
    (found : link.socket.thread thread = some sending) (short : sending.total + n < sending.buffer.length)
    (alone : n = 0 ∨ ∀ other, other ≠ thread → link.socket.accepted other = []) :
    Link.Sends dialect { link with
      socket := { link.socket with
        wire := link.socket.wire ++ (sending.buffer.drop sending.total).take n
        thread := Function.update link.socket.thread thread (some { sending with total := sending.total + n }) } } := by
  have accepted (other : Nat) := accepted_update link.socket thread other (some { sending with total := sending.total + n })
    (link.socket.wire ++ (sending.buffer.drop sending.total).take n) link.socket.frames
  have here : link.socket.accepted thread = sending.buffer.take sending.total := by rw [Socket.accepted,found]
  have busy (other : Nat) : Function.update link.socket.thread thread (some { sending with total := sending.total + n }) other ≠ none →
      link.socket.thread other ≠ none := by
    rw [Function.update_apply]
    split
    · rename_i same
      rw [same,found]
      exact fun _ => Option.some_ne_none sending
    · exact id
  refine ⟨sends.counted,sends.comes,?_,fun one other first second => sends.apart one other (busy one first) (busy other second),
    sends.known,sends.distinct,?_⟩
  · intro other sending' found'
    change Function.update link.socket.thread thread _ other = _ at found'
    by_cases same : other = thread
    · subst same
      rw [Function.update_self] at found'
      cases found'
      exact ⟨short,(sends.called other sending found).2⟩
    · rw [Function.update_of_ne same] at found'
      exact sends.called other sending' found'
  · obtain rfl | quiet := alone
    · obtain ⟨owner,wire,others⟩ := sends.wire
      have same (other : Nat) : Socket.accepted ⟨link.socket.wire ++ (sending.buffer.drop sending.total).take 0,link.socket.frames,
          Function.update link.socket.thread thread (some { sending with total := sending.total + 0 })⟩ other =
            link.socket.accepted other := by
        rw [accepted other]
        split
        · rename_i same
          rw [same,here]
          rfl
        · rfl
      refine ⟨owner,?_,fun other apart => (same other).trans (others other apart)⟩
      rw [same owner]
      exact (List.append_nil _).trans wire
    · refine ⟨thread,?_,?_⟩
      · rw [accepted thread,if_pos rfl]
        change link.socket.wire ++ _ = _ ++ sending.buffer.take (sending.total + n)
        rw [sends.owner quiet,here,List.take_add,← List.append_assoc]
        rfl
      · intro other apart
        rw [accepted other,if_neg apart]
        exact quiet other apart

/-- The rest of a frame is accepted. -/
theorem Link.Sends.finish (sends : link.Sends dialect) {thread id n : Nat} {sending : Sending}
    (found : link.socket.thread thread = some sending) (named : link.last thread = some id)
    (rest : sending.buffer.length = sending.total + n) (quiet : ∀ other, other ≠ thread → link.socket.accepted other = []) :
    Link.Sends dialect { link with
      socket := { link.socket with
        wire := link.socket.wire ++ (sending.buffer.drop sending.total).take n
        thread := Function.update link.socket.thread thread none }
      line := link.line ++ [id] } := by
  have accepted (other : Nat) := accepted_update link.socket thread other none
    (link.socket.wire ++ (sending.buffer.drop sending.total).take n) link.socket.frames
  have here : link.socket.accepted thread = sending.buffer.take sending.total := by rw [Socket.accepted,found]
  have busy {other : Nat} {sending' : Sending} (found' : Function.update link.socket.thread thread none other = some sending') :
      other ≠ thread ∧ link.socket.thread other = some sending' := by
    rw [Function.update_apply] at found'
    split at found'
    · cases found'
    · rename_i apart
      exact ⟨apart,found'⟩
  obtain ⟨_,id',named',known,fresh,frame⟩ := sends.called thread sending found
  cases named.symm.trans named'
  refine ⟨sends.counted,sends.comes,?_,?_,?_,?_,thread,?_,?_⟩
  · intro other sending' found'
    obtain ⟨apart,found'⟩ := busy found'
    obtain ⟨short,id',named',known,fresh,frame⟩ := sends.called other sending' found'
    refine ⟨short,id',named',known,?_,frame⟩
    intro member
    rcases List.mem_append.mp member with member | member
    · exact fresh member
    · have same : link.last thread = link.last other := by rw [named,named',List.mem_singleton.mp member]
      refine apart (sends.apart thread other ?_ ?_ same).symm
      · rw [found]
        exact Option.some_ne_none sending
      · rw [found']
        exact Option.some_ne_none sending'
  · intro one other first second
    obtain ⟨sending,found⟩ := Option.ne_none_iff_exists'.mp first
    obtain ⟨sending',found'⟩ := Option.ne_none_iff_exists'.mp second
    refine sends.apart one other ?_ ?_
    · rw [(busy found).2]
      exact Option.some_ne_none sending
    · rw [(busy found').2]
      exact Option.some_ne_none sending'
  · intro other member
    rcases List.mem_append.mp member with member | member
    · exact sends.known other member
    · rw [List.mem_singleton.mp member]
      exact known
  · refine List.nodup_append.mpr ⟨sends.distinct,List.nodup_singleton id,?_⟩
    intro other member same last equal
    rw [equal,List.mem_singleton.mp last] at member
    exact fresh member
  · rw [accepted thread,if_pos rfl]
    change link.socket.wire ++ (sending.buffer.drop sending.total).take n = ((link.line ++ [id]).map link.frame).flatten ++ []
    rw [sends.owner quiet,here,List.append_assoc,← List.take_add,← rest,List.take_length,List.map_append,List.flatten_append,
      List.append_nil,frame]
    congr 1
    exact (List.append_nil _).symm
  · intro other apart
    rw [accepted other,if_neg apart]
    exact quiet other apart

theorem Link.Sends.send (sends : link.Sends dialect) {thread : Nat} {amt : Option Nat} (orderly : link.socket.Orderly (.send thread amt))
    (outcome : link.step dialect (.send thread amt) = some next) : next.Sends dialect := by
  obtain ⟨socket,called,rfl⟩ := Option.map_eq_some_iff.mp outcome
  simp only [Socket.step] at called
  split at called
  · cases called
  · cases called
    exact sends.giveUp orderly
  · rename_i sending n found
    obtain ⟨total,id,named,_⟩ := sends.called thread sending found
    split_ifs at called with room short
    · cases called
      have busy : Function.update link.socket.thread thread (some { sending with total := sending.total + n }) thread ≠ none := by
        rw [Function.update_self]
        exact Option.some_ne_none _
      rw [if_neg fun both => busy both.2]
      exact sends.advance found short orderly
    · cases called
      have idle : Function.update link.socket.thread thread none thread = none := Function.update_self ..
      rw [List.length_drop] at room
      rw [if_pos ⟨rfl,idle⟩,named]
      refine sends.finish found named (by omega) (orderly.resolve_left ?_)
      omega

end Sending

/-! ### The receiving end -/

/-- The receive path has been given what was taken of the wire, with no fault. -/
structure Link.Receives (link : Link Body) : Prop where
  taken : link.taken ≤ link.socket.wire.length
  answers : ∃ answers, run receive .start answers = some link.conn ∧ stream answers = link.socket.wire.take link.taken ∧
    Along receive Served .start answers ∧ Along receive Spared .start answers

section Receiving
variable {dialect : Dialect Body} {link next : Link Body} {good : Call Body → Prop}

theorem stream_append (first second : List Answer) : stream (first ++ second) = stream first ++ stream second := by
  induction first with
  | nil => rfl
  | cons answer first ih =>
    cases answer with
    | again => exact ih
    | data bytes stale => rw [List.cons_append,stream,ih,stream,List.append_assoc]

theorem Link.Receives.grow (receives : link.Receives) (conn : next.conn = link.conn) (taken : next.taken = link.taken)
    (wire : link.socket.wire <+: next.socket.wire) : next.Receives := by
  obtain ⟨more,grown⟩ := wire
  obtain ⟨answers,outcome,given,served,spared⟩ := receives.answers
  refine ⟨?_,answers,conn ▸ outcome,?_,served,spared⟩
  · rw [taken,← grown,List.length_append]
    exact receives.taken.trans (Nat.le_add_right ..)
  · rw [given,taken,← grown,List.take_append_of_le_length receives.taken]

theorem socket_grows {socket socket' : Socket} {event : Chat.SendFull.Event} (outcome : socket.step event = some socket') :
    socket.wire <+: socket'.wire := by
  cases event with
  | sendMessage thread packet_stream =>
    simp only [Socket.step] at outcome
    split at outcome
    · cases outcome
    · split at outcome
      · cases outcome
      · cases outcome
        exact List.prefix_refl _
  | send thread amt =>
    simp only [Socket.step] at outcome
    split at outcome
    · cases outcome
    · cases outcome
      exact List.prefix_refl _
    · split at outcome
      · cases outcome
        exact List.prefix_append ..
      · cases outcome

theorem Link.Receives.recv (receives : link.Receives) {n : Nat} {stale : Int32} (spared : Spared link.conn (.data (link.piece n) stale))
    (outcome : link.step dialect (.recv n stale) = some next) : next.Receives := by
  simp only [Link.step] at outcome
  split_ifs at outcome with given
  obtain ⟨positive,window,there⟩ := given
  obtain ⟨conn,received_,rfl⟩ := Option.map_eq_some_iff.mp outcome
  obtain ⟨answers,reaches,stream_,served,spared_⟩ := receives.answers
  have length : (link.piece n).length = n := by rw [Link.piece,List.length_take,min_eq_left there]
  have serves : Served link.conn (.data (link.piece n) stale) := by
    refine ⟨?_,?_⟩
    · rw [← List.length_pos_iff,length]
      exact positive
    · rw [length]
      exact window
  have last {meets : EchoConn → Answer → Prop} (holds : meets link.conn (.data (link.piece n) stale)) :
      ∀ conn, run receive .start answers = some conn → Along receive meets conn [.data (link.piece n) stale] := by
    intro other same
    cases reaches.symm.trans same
    exact ⟨holds,fun _ _ => trivial⟩
  refine ⟨?_,answers ++ [.data (link.piece n) stale],?_,?_,served.append (last serves),spared_.append (last spared)⟩
  · rw [List.length_drop] at there
    have taken := receives.taken
    change link.taken + n ≤ link.socket.wire.length
    omega
  · exact run_trans reaches (Option.bind_eq_some_iff.mpr ⟨conn,received_,rfl⟩)
  · rw [stream_append,stream_,stream,stream,List.append_nil,List.take_add]
    rfl

end Receiving

/-! ### What arrives -/

theorem received_front (frames : List (List UInt8)) (n : Nat) : received frames n <+: frames := by
  induction frames generalizing n with
  | nil => exact List.prefix_refl []
  | cons frame frames ih =>
    rw [received]
    split
    · exact List.cons_prefix_cons.mpr ⟨rfl,ih _⟩
    · exact List.nil_prefix

/-- Of frames in two parts, the second is begun when the first has come. -/
theorem received_append (first second : List (List UInt8)) (n : Nat) :
    received (first ++ second) n =
      if first.flatten.length ≤ n then first ++ received second (n - first.flatten.length) else received first n := by
  induction first generalizing n with
  | nil => rfl
  | cons frame first ih =>
    rw [List.cons_append,received,received,ih,List.flatten_cons,List.length_append]
    by_cases whole : frame.length ≤ n
    · rw [if_pos whole,if_pos whole,Nat.sub_sub]
      split
      · rw [if_pos (by omega),List.cons_append]
      · rw [if_neg (by omega)]
    · rw [if_neg whole,if_neg whole,if_neg (by omega)]

section Arrival
variable {dialect : Dialect Body} {link : Link Body}

theorem Link.Sends.framed (sends : link.Sends dialect) {id : Nat} (known : id < link.calls.length) : Framed (link.frame id) :=
  (sends.comes id _ (List.getElem?_eq_getElem known)).2

/-- The frames on the wire, with the one in the middle of which it ends. -/
theorem Link.Sends.frames (sends : link.Sends dialect) : ∃ rest : List (List UInt8),
    (∀ frame ∈ link.line.map link.frame ++ rest, Framed frame) ∧
      link.socket.wire <+: (link.line.map link.frame ++ rest).flatten ∧
      ((link.line.map link.frame).flatten.length ≤ link.socket.wire.length) ∧
      ∀ n, n ≤ link.socket.wire.length → received rest (n - (link.line.map link.frame).flatten.length) = [] := by
  obtain ⟨owner,wire,_⟩ := sends.wire
  have whole : ∀ frame ∈ link.line.map link.frame, Framed frame := by
    intro frame member
    obtain ⟨id,listed,rfl⟩ := List.mem_map.mp member
    exact sends.framed (sends.known id listed)
  rw [Socket.accepted] at wire
  cases found : link.socket.thread owner with
  | none =>
    rw [found] at wire
    refine ⟨[],?_,?_,?_,fun _ _ => rfl⟩
    · rw [List.append_nil]
      exact whole
    · rw [wire,List.append_nil,List.append_nil]
    · rw [wire,List.length_append]
      exact Nat.le_add_right ..
  | some sending =>
    rw [found] at wire
    obtain ⟨short,id,_,known,_,frame⟩ := sends.called owner sending found
    refine ⟨[sending.buffer],?_,?_,?_,?_⟩
    · intro other member
      rcases List.mem_append.mp member with member | member
      · exact whole other member
      · rw [List.mem_singleton.mp member,frame]
        exact sends.framed known
    · rw [wire,List.flatten_append,List.flatten_singleton]
      exact (List.prefix_append_right_inj _).mpr (List.take_prefix ..)
    · rw [wire,List.length_append]
      exact Nat.le_add_right ..
    · intro n inside
      rw [wire,List.length_append,List.length_take] at inside
      rw [received,if_neg (by omega)]

/-- The buffers handed over are frames of the line, in its order. -/
theorem tasks_of_inv (sends : link.Sends dialect) (receives : link.Receives) :
    ∃ ids, ids <+: link.line ∧ link.conn.tasks = ids.map link.frame ∧
      (link.taken = link.socket.wire.length → ids = link.line) := by
  obtain ⟨rest,framed,wire,long,open_⟩ := sends.frames
  obtain ⟨answers,outcome,given,served,spared⟩ := receives.answers
  have delivered : [] ++ stream answers <+: (link.line.map link.frame ++ rest).flatten := by
    rw [List.nil_append,given]
    exact (List.take_prefix ..).trans wire
  obtain ⟨final,ends,tasks⟩ := (reassembles_from framed Net.start_inv (first_long framed) delivered served).mpr spared
  cases outcome.symm.trans ends
  rw [List.nil_append,given,List.length_take,min_eq_left receives.taken,received_append] at tasks
  have none : EchoConn.start.tasks = [] := rfl
  rw [none,List.nil_append] at tasks
  by_cases all : (link.line.map link.frame).flatten.length ≤ link.taken
  · rw [if_pos all,open_ link.taken receives.taken,List.append_nil] at tasks
    exact ⟨link.line,List.prefix_refl _,tasks,fun _ => rfl⟩
  · rw [if_neg all] at tasks
    obtain ⟨ids,short,same⟩ := List.prefix_map_iff.mp (received_front (link.line.map link.frame) link.taken)
    refine ⟨ids,short,tasks.trans same,fun whole => absurd ?_ all⟩
    rw [whole]
    exact long

end Arrival

/-! ### Runs -/

section Run
variable {dialect : Dialect Body} {good : Call Body → Prop}

theorem start_sends : (Link.start : Link Body).Sends dialect := by
  refine ⟨rfl,?_,?_,?_,?_,List.nodup_nil,0,rfl,fun _ _ => rfl⟩
  · intro id call found
    cases found
  · intro thread sending found
    cases found
  · intro thread other busy
    exact absurd rfl busy
  · intro id member
    cases member

theorem start_receives : (Link.start : Link Body).Receives := ⟨le_rfl,[],rfl,rfl,trivial,trivial⟩

theorem inv_step (trips : ∀ call, good call → dialect.RoundTrips call.packhead call.body) {link next : Link Body} {event : Event Body}
    (inv : link.Sends dialect ∧ link.Receives) (meets : link.Meets good event) (outcome : link.step dialect event = some next) :
    next.Sends dialect ∧ next.Receives := by
  obtain ⟨sends,receives⟩ := inv
  cases event with
  | sendMessage thread call uninit =>
    refine ⟨sends.sendMessage (trips call meets) outcome,?_⟩
    simp only [Link.step] at outcome
    split at outcome
    · cases outcome
    · split_ifs at outcome
      · cases outcome
        exact receives
      · obtain ⟨socket,called,rfl⟩ := Option.map_eq_some_iff.mp outcome
        exact receives.grow rfl rfl (socket_grows called)
  | send thread amt =>
    refine ⟨sends.send meets outcome,?_⟩
    obtain ⟨socket,called,rfl⟩ := Option.map_eq_some_iff.mp outcome
    exact receives.grow rfl rfl (socket_grows called)
  | recv n stale =>
    refine ⟨?_,receives.recv meets outcome⟩
    simp only [Link.step] at outcome
    split_ifs at outcome
    obtain ⟨conn,_,rfl⟩ := Option.map_eq_some_iff.mp outcome
    exact ⟨sends.counted,sends.comes,sends.called,sends.apart,sends.known,sends.distinct,sends.wire⟩

/-- Every buffer handed over comes back as the message of a call of its own, in the order in which the socket accepted
the frames; when all that was accepted has been received, no accepted frame is missing. -/
def Link.Delivered (dialect : Dialect Body) (link : Link Body) : Prop :=
  link.line.Nodup ∧ ∃ ids, ids <+: link.line ∧
    List.Forall₂ (fun id packet_stream => ∃ call, link.calls[id]? = some call ∧ call.Comes dialect packet_stream) ids link.conn.tasks ∧
    (link.taken = link.socket.wire.length → ids = link.line)

theorem delivered (trips : ∀ call, good call → dialect.RoundTrips call.packhead call.body) {events : List (Event Body)}
    {final : Link Body} (meets : Along (Link.step dialect) (Link.Meets good) .start events)
    (ends : run (Link.step dialect) .start events = some final) : final.Delivered dialect := by
  obtain ⟨sends,receives⟩ := run_invariant (inv_step trips) ⟨start_sends,start_receives⟩ meets ends
  obtain ⟨ids,short,tasks,whole⟩ := tasks_of_inv sends receives
  refine ⟨sends.distinct,ids,short,?_,whole⟩
  rw [tasks,List.forall₂_map_right_iff,List.forall₂_same]
  intro id member
  have known := sends.known id (short.subset member)
  exact ⟨_,List.getElem?_eq_getElem known,(sends.comes id _ (List.getElem?_eq_getElem known)).1⟩

end Run

/-! ### The two servers -/

/-- A message of the chat server whose decoder undoes its encoder. -/
structure ChatCall (call : Call Chat.Body) : Prop where
  kind : call.packhead.operate_code = call.body.code.value
  terminated : call.body.Terminated
  failed : call.body.code ≠ .USER_LOGIN_FAILED
  recv : call.body.code ≠ .TEXT_CHAT_PRIVATE_RECV
  sized : PACKET_HEAD_LENGTH + call.body.size < 2^31
  full : ¬call.packhead.bare

/-- The same for the robot server. -/
structure RobotCall (call : Call Robot.Body) : Prop where
  kind : ∃ code : Robot.operatorcode, call.packhead.operate_code = code.value ∧ Robot.Body.casts code call.body = true
  terminated : call.body.Terminated
  faithful : call.body.Faithful
  sized : PACKET_HEAD_LENGTH + call.body.size < 2^31
  proper : call.packhead.bare → call.body.size = 0

theorem robot_delivered {fresh : Int64} {events : List (Event Robot.Body)} {final : Link Robot.Body}
    (meets : Along (Link.step (Robot.protocolPack fresh)) (Link.Meets RobotCall) .start events)
    (ends : run (Link.step (Robot.protocolPack fresh)) .start events = some final) : final.Delivered (Robot.protocolPack fresh) := by
  refine delivered ?_ meets ends
  intro call good
  obtain ⟨code,kind,cast⟩ := good.kind
  intro uninit around
  obtain ⟨packed,unpacked,packs,unpacks,same,_⟩ :=
    Robot.roundTrips_of_faithful kind cast good.terminated good.faithful good.sized good.proper fresh uninit around
  exact ⟨packed,unpacked,packs,unpacks,same⟩

/-- User -5 quits: the frame is accepted in two pieces and received in three. -/
def quitEvents : List (Event Chat.Body) :=
  [.sendMessage 0 ⟨⟨0,1011,0,7,1,0,42,0⟩,.userQuitNotification ⟨10000,-5⟩⟩ fun _ => 0,.send 0 (some 20),.recv 4 1,
    .send 0 (some 27),.recv 16 1,.recv 27 1]

theorem quit_meets : Along (Link.step Chat.protocolPack) (Link.Meets ChatCall) .start quitEvents := by
  refine ⟨⟨rfl,trivial,by decide,by decide,by decide,by decide⟩,?_⟩
  intro next outcome
  cases outcome
  refine ⟨.inr ?_,?_⟩
  · intro other apart
    rw [Socket.accepted]
    simp only [Function.update_of_ne apart]
    rfl
  intro next outcome
  cases outcome
  refine ⟨fun _ => by decide,?_⟩
  intro next outcome
  cases outcome
  refine ⟨.inr ?_,?_⟩
  · intro other apart
    rw [Socket.accepted]
    simp only [Function.update_of_ne apart]
    rfl
  intro next outcome
  cases outcome
  refine ⟨fun _ => by decide,?_⟩
  intro next outcome
  cases outcome
  exact ⟨fun _ => by decide,fun _ _ => trivial⟩

end Migfm.System
