import Migfm.Logic.Infos
import Migfm.Storage.RedisWarrper

/-! The token of public/basic/basic_util.cc that a user gets at a login, and the
request of master/sociality that has to show it. memcached keeps what was last set. -/
namespace Migfm.Sociality
open Logic (ascii decimal atoll)
open Storage (c_str)

abbrev MemDic := List UInt8 → Option (List UInt8)

/-- `map_value_`. -/
abbrev HttpPacket := List UInt8 → Option (List UInt8)

structure Share where
  uid : Int64
  songid : Int64
  plat : Int64
  deriving DecidableEq

/-- `records` are the calls of `proc_RecordShareLog`, `notices` those of `NoticeUserGiftLuck`. -/
structure World where
  mem : MemDic
  records : List Share
  notices : List Share

inductive Errno
  | MIG_FM_HTTP_USER_NO_EXITS
  | MIG_FM_HTTP_SONG_ID_NO_VALID
  | MIG_FM_SHARE_TYPE
  | MIG_FM_NO_TOKEN
  | MIG_FM_TOKEN_ERRNO
  deriving DecidableEq

def tokenKey (uid : List UInt8) : List UInt8 := uid ++ ascii "token"

/-- What `strcmp` finds is not what is returned. -/
def CheckUserToken (mem : MemDic) (uid token : List UInt8) : Bool :=
  match mem (tokenKey uid) with
  | none => false
  | some mem_value =>
    let _r := c_str mem_value = c_str token
    true

section Service
variable (MD5Sum : List UInt8 → List UInt8) (proc_RecordShareLog : List Share → Share → Bool)

def GetUserToken (mem : MemDic) (uid : List UInt8) (random_num : Int32) : List UInt8 × MemDic :=
  let token := MD5Sum (decimal random_num.toInt)
  (token,Function.update mem (tokenKey uid) (some token))

/-- The procedure answers 1 for a share it has not yet. -/
def RecordShareInfo (world : World) (share : Share) : Bool × World :=
  (proc_RecordShareLog world.records share,{world with records := world.records ++ [share]})

/-- What `OnMsgGitfLuckMessage` does once the token is checked. -/
def recordAndNotice (world : World) (share : Share) : World :=
  match RecordShareInfo proc_RecordShareLog world share with
  | (true,world) => {world with notices := world.notices ++ [share]}
  | (false,world) => world

def OnMsgGitfLuckMessage (world : World) (packet : HttpPacket) : Except Errno World :=
  match packet (ascii "uid") with
  | none => .error .MIG_FM_HTTP_USER_NO_EXITS
  | some str_uid => match packet (ascii "songid") with
    | none => .error .MIG_FM_HTTP_SONG_ID_NO_VALID
    | some str_songid => match packet (ascii "share_plat") with
      | none => .error .MIG_FM_SHARE_TYPE
      | some str_share_plat => match packet (ascii "token") with
        | none => .error .MIG_FM_NO_TOKEN
        | some token =>
          if CheckUserToken world.mem str_uid token then
            .ok (recordAndNotice proc_RecordShareLog world ⟨atoll str_uid,atoll str_songid,atoll str_share_plat⟩)
          else .error .MIG_FM_TOKEN_ERRNO

/-- A login of a user, with what the random numbers give, or a request. -/
inductive Event
  | issue (uid : List UInt8) (random_num : Int32)
  | request (packet : HttpPacket)

def step (world : World) : Event → World
  | .issue uid random_num => {world with mem := (GetUserToken MD5Sum world.mem uid random_num).2}
  | .request packet => match OnMsgGitfLuckMessage proc_RecordShareLog world packet with
    | .ok world => world
    | .error _ => world

def start : World := ⟨fun _ => none,[],[]⟩

def run (events : List Event) : World := events.foldl (step MD5Sum proc_RecordShareLog) start

def issued (uid : List UInt8) (last : Option (List UInt8)) : Event → Option (List UInt8)
  | .issue other random_num => if other = uid then some (MD5Sum (decimal random_num.toInt)) else last
  | .request _ => last

/-- The token most recently issued to the user. -/
def lastIssued (events : List Event) (uid : List UInt8) : Option (List UInt8) := events.foldl (issued MD5Sum uid) none

/-- What is promised of a sequence of logins and requests. -/
structure Right (events : List Event) : Prop where
  gated : ∀ before packet after, events = before ++ .request packet::after → ∀ world,
    OnMsgGitfLuckMessage proc_RecordShareLog (run MD5Sum proc_RecordShareLog before) packet = .ok world →
      ∃ uid token, packet (ascii "uid") = some uid ∧ packet (ascii "token") = some token ∧
        lastIssued MD5Sum before uid = some token
  unseen : ∀ before packet after, events = before ++ .request packet::after →
    (∀ uid token, packet (ascii "uid") = some uid → packet (ascii "token") = some token →
      lastIssued MD5Sum before uid ≠ some token) →
    (run MD5Sum proc_RecordShareLog events).records = (run MD5Sum proc_RecordShareLog (before ++ after)).records ∧
      (run MD5Sum proc_RecordShareLog events).notices = (run MD5Sum proc_RecordShareLog (before ++ after)).notices

/-- A request that lacks nothing shows the right token, if its user has one. -/
def Honest (events : List Event) : Prop :=
  ∀ before packet after, events = before ++ .request packet::after →
    ∀ uid token issued, packet (ascii "uid") = some uid → packet (ascii "songid") ≠ none →
      packet (ascii "share_plat") ≠ none → packet (ascii "token") = some token →
      lastIssued MD5Sum before uid = some issued → token = issued

theorem recordAndNotice_mem (world : World) (share : Share) :
    (recordAndNotice proc_RecordShareLog world share).mem = world.mem := by
  unfold recordAndNotice RecordShareInfo
  cases proc_RecordShareLog world.records share with
  | false => rfl
  | true => rfl

theorem OnMsgGitfLuckMessage_mem {world next : World} {packet : HttpPacket}
    (through : OnMsgGitfLuckMessage proc_RecordShareLog world packet = .ok next) : next.mem = world.mem := by
  unfold OnMsgGitfLuckMessage at through
  split at through
  · cases through
  · split at through
    · cases through
    · split at through
      · cases through
      · split at through
        · cases through
        · split at through
          · rw [← Except.ok.inj through]
            exact recordAndNotice_mem proc_RecordShareLog world _
          · cases through

theorem request_mem (world : World) (packet : HttpPacket) :
    (step MD5Sum proc_RecordShareLog world (.request packet)).mem = world.mem := by
  unfold step
  cases answer : OnMsgGitfLuckMessage proc_RecordShareLog world packet with
  | error code => simp only [answer]
  | ok next =>
    simp only [answer]
    exact OnMsgGitfLuckMessage_mem proc_RecordShareLog answer

/-- What memcached holds of the tokens. -/
theorem run_mem (events : List Event) (uid : List UInt8) :
    (run MD5Sum proc_RecordShareLog events).mem (tokenKey uid) = lastIssued MD5Sum events uid := by
  induction events using List.reverseRecOn with
  | nil => rfl
  | append_singleton events event ih =>
    unfold run lastIssued at ih ⊢
    rw [List.foldl_append,List.foldl_append,List.foldl_cons,List.foldl_cons,List.foldl_nil,List.foldl_nil]
    cases event with
    | issue other random_num =>
      by_cases same : other = uid
      · subst same
        rw [issued,if_pos rfl]
        exact Function.update_self _ _ _
      · have apart : tokenKey uid ≠ tokenKey other := fun equal => same (List.append_cancel_right equal).symm
        rw [issued,if_neg same,← ih]
        exact Function.update_of_ne apart _ _
    | request packet =>
      rw [request_mem]
      exact ih

/-- A request is let through when it lacks nothing and its user has a token. -/
theorem let_through_iff (world : World) (packet : HttpPacket) :
    (∃ next, OnMsgGitfLuckMessage proc_RecordShareLog world packet = .ok next) ↔
      ∃ uid token issued, packet (ascii "uid") = some uid ∧ packet (ascii "songid") ≠ none ∧
        packet (ascii "share_plat") ≠ none ∧ packet (ascii "token") = some token ∧ world.mem (tokenKey uid) = some issued := by
  unfold OnMsgGitfLuckMessage CheckUserToken
  cases packet (ascii "uid") with
  | none => simp
  | some uid => cases packet (ascii "songid") with
    | none => simp
    | some songid => cases packet (ascii "share_plat") with
      | none => simp
      | some plat => cases packet (ascii "token") with
        | none => simp
        | some token => cases held : world.mem (tokenKey uid) with
          | none => simp [held]
          | some issued => simp [held]

variable {MD5Sum proc_RecordShareLog} {events : List Event}

theorem Right.honest (right : Right MD5Sum proc_RecordShareLog events) : Honest MD5Sum events := by
  intro before packet after whole uid token issued has_uid has_songid has_plat has_token last
  have held := (run_mem MD5Sum proc_RecordShareLog before uid).trans last
  obtain ⟨next,through⟩ := (let_through_iff proc_RecordShareLog (run MD5Sum proc_RecordShareLog before) packet).mpr
    ⟨uid,token,issued,has_uid,has_songid,has_plat,has_token,held⟩
  obtain ⟨uid',token',same_uid,same_token,shown⟩ := right.gated before packet after whole next through
  cases has_uid.symm.trans same_uid
  cases has_token.symm.trans same_token
  exact Option.some.inj (shown.symm.trans last)

theorem Honest.gated (honest : Honest MD5Sum events) {before after : List Event} {packet : HttpPacket}
    (whole : events = before ++ .request packet::after) {world : World}
    (through : OnMsgGitfLuckMessage proc_RecordShareLog (run MD5Sum proc_RecordShareLog before) packet = .ok world) :
    ∃ uid token, packet (ascii "uid") = some uid ∧ packet (ascii "token") = some token ∧
      lastIssued MD5Sum before uid = some token := by
  obtain ⟨uid,token,issued,has_uid,has_songid,has_plat,has_token,held⟩ :=
    (let_through_iff proc_RecordShareLog (run MD5Sum proc_RecordShareLog before) packet).mp ⟨world,through⟩
  rw [run_mem] at held
  have same := honest before packet after whole uid token issued has_uid has_songid has_plat has_token held
  rw [← same] at held
  exact ⟨uid,token,has_uid,has_token,held⟩

theorem Honest.right (honest : Honest MD5Sum events) : Right MD5Sum proc_RecordShareLog events := by
  refine ⟨fun before packet after whole world through => honest.gated whole through,?_⟩
  intro before packet after whole wrong
  have ignored : step MD5Sum proc_RecordShareLog (run MD5Sum proc_RecordShareLog before) (.request packet) =
      run MD5Sum proc_RecordShareLog before := by
    unfold step
    cases answer : OnMsgGitfLuckMessage proc_RecordShareLog (run MD5Sum proc_RecordShareLog before) packet with
    | error code => simp only [answer]
    | ok next =>
      obtain ⟨uid,token,has_uid,has_token,last⟩ := honest.gated whole answer
      exact absurd last (wrong uid token has_uid has_token)
  have same : run MD5Sum proc_RecordShareLog events = run MD5Sum proc_RecordShareLog (before ++ after) := by
    rw [whole]
    unfold run at ignored ⊢
    rw [List.foldl_append,List.foldl_append,List.foldl_cons,ignored]
  rw [same]
  exact ⟨rfl,rfl⟩

variable (MD5Sum proc_RecordShareLog) in
/-- The check gates the requests exactly where nobody shows a wrong token. -/
theorem right_iff_honest (events : List Event) : Right MD5Sum proc_RecordShareLog events ↔ Honest MD5Sum events :=
  ⟨Right.honest,Honest.right⟩

end Service

/-- The packet of a share. -/
def shareOf (uid songid share_plat token : List UInt8) : HttpPacket := fun name =>
  [(ascii "uid",uid),(ascii "songid",songid),(ascii "share_plat",share_plat),(ascii "token",token)].lookup name

/-- Whatever tokens are made of: a user with a token shows it with one more letter, and is let through. -/
theorem not_right : ¬∃ MD5Sum proc_RecordShareLog, ∀ events, Right MD5Sum proc_RecordShareLog events := by
  rintro ⟨MD5Sum,proc_RecordShareLog,right⟩
  have honest := (right [.issue (ascii "1") 7,
    .request (shareOf (ascii "1") (ascii "2") (ascii "3") (MD5Sum (decimal 7) ++ [120]))]).honest
  have same := honest [.issue (ascii "1") 7] _ [] rfl (ascii "1") (MD5Sum (decimal 7) ++ [120]) (MD5Sum (decimal 7))
    rfl (Option.some_ne_none (ascii "2")) (Option.some_ne_none (ascii "3")) rfl rfl
  have lengths := congrArg List.length same
  rw [List.length_append] at lengths
  simp at lengths

end Migfm.Sociality
