import Migfm.Logic.ValueSerializer

/-! The parameters of a request, as `MYHttpApi` of base/net/http_api.cc extracts them for its operations. -/
namespace Migfm.Net.HttpApi
open Logic (ascii)

/-! ### The macros -/

abbrev Packet := String → Option (List UInt8)

/-- The variables of an operation by their names: its arguments and its locals. -/
abbrev Vars := String → List UInt8

/-- A use of `PARAM_IS_EXIST_RETURN` or of `PARAM_IS_EXIST_DEFAULTPARAM`. -/
inductive Use
  | RETURN (NAME PARAM : String) (ERR_CODE : Int)
  | DEFAULTPARAM (NAME PARAM DEFAULT : String)

def GetAttrib (packet : Packet) (NAME PARAM : String) (vars : Vars) : Vars :=
  match packet NAME with
  | none => vars
  | some value => Function.update vars PARAM value

/-- The variables then, or `err`. -/
def Use.run (packet : Packet) (vars : Vars) : Use → Except Int Vars
  | .RETURN NAME PARAM ERR_CODE =>
    let vars := GetAttrib packet NAME PARAM vars
    if packet NAME = none ∨ vars PARAM = [] then .error ERR_CODE else .ok vars
  | .DEFAULTPARAM NAME PARAM DEFAULT =>
    let vars := GetAttrib packet NAME PARAM vars
    if packet NAME = none ∨ vars PARAM = [] then
      if vars DEFAULT ≠ [] then .ok (Function.update vars PARAM (vars DEFAULT)) else .ok vars
    else .ok vars

/-- The arguments of the caller; an operation is given what they hold. -/
abbrev Operation := Packet → Vars → Except Int Vars

def declare (locals : List (String × List UInt8)) (old : Vars) : Vars := fun name => (locals.lookup name).getD (old name)

/-- The uses one after another. Only the references are the caller's. -/
def extract (references : List String) (locals : List (String × List UInt8)) (uses : List Use) : Operation :=
  fun packet old => (uses.foldlM (Use.run packet) (declare locals old)).map
    fun vars name => if name ∈ references then vars name else old name

/-! ### Error codes -/

def USERNAME_NOT_EXIST : Int := -1
def PASSWORD_NOT_EXIST : Int := -2
def NICKNAME_NOT_EXIST : Int := -3
def SOURCE_NOT_EXIST : Int := -4
def SESSION_NOT_EXIST : Int := -5
def SEX_NOT_EXIST : Int := -6
def BIRTHDAY_NOT_EXIST : Int := -7
def UID_NOT_EXIST : Int := -10
def TID_NOT_EXIST : Int := -11
def MSGID_NOT_EXIST : Int := -12
def CHANNEL_ID_NOT_EXIST : Int := -13
def MODE_NOT_EXIST : Int := -14
def MODE_ID_NOT_EXIST : Int := -15
def TYPE_INDEX_NOT_EXIST : Int := -18
def MOOD_INDEX_NOT_EXIST : Int := -19
def SCENE_INDEX_NOT_EXIST : Int := -20
def MOOD_ID_NOT_EXIST : Int := -21
def SCENCE_ID_NOT_EXIST : Int := -22
def TAR_UID_NOT_EXIST : Int := -23
def CUR_SONG_NOT_EXIST : Int := -24
def LAST_SONG_NOT_EXIST : Int := -25
def NAME_SONG_NOT_EXIST : Int := -26
def SINGER_NOT_EXIST : Int := -27
def STATE_NOT_EXIST : Int := -28
/-- The later of two definitions. -/
def SONG_ID_NOT_EXIST : Int := -29
def PLAT_ID_NOT_EXIST : Int := -30
def EXT_MSG_NOT_EXIST : Int := -32
def COMMENT_MSG_NOT_EXIST : Int := -33

/-! ### UserManager -/

/-- What follows on `source`. -/
def registerUses (source : List UInt8) : List Use :=
  (if source ≠ ascii "0" then [.RETURN "session" "session" SESSION_NOT_EXIST]
    else [.DEFAULTPARAM "session" "session" "default_session"]) ++
  (if source = ascii "0" then
    [.RETURN "username" "username" USERNAME_NOT_EXIST,
      .RETURN "password" "password" PASSWORD_NOT_EXIST,
      .DEFAULTPARAM "sex" "sex" "default_sex",
      .DEFAULTPARAM "location" "location" "default_location",
      .DEFAULTPARAM "head" "head" "default_head"]
  else
    [.DEFAULTPARAM "username" "username" "default_username",
      .DEFAULTPARAM "password" "password" "default_username"]) ++
  [.DEFAULTPARAM "nickname" "nickname" "default_nickname",
    .DEFAULTPARAM "address" "address" "default_address"]

def registerReferences : List String :=
  ["username","password","nickname","source","session","sex","birthday","location","address","head"]

def default_username : List UInt8 := ascii "default@miglab.com"

/-- 米格用户 -/
def default_nickname : List UInt8 := [231,177,179,230,160,188,231,148,168,230,136,183]

def default_birthday : List UInt8 := ascii "1986-10=01"

def registerLocals : List (String × List UInt8) :=
  [("default_session",ascii "1"),("default_username",default_username),("default_nickname",default_nickname),
    ("default_sex",ascii "1"),("default_birthday",default_birthday),("default_location",[]),("default_head",[]),
    ("default_address",[])]

def OnUserRegister : Operation := fun packet old =>
  ((Use.run packet (declare registerLocals old) (.RETURN "source" "source" SOURCE_NOT_EXIST)).bind fun vars =>
    (registerUses (vars "source")).foldlM (Use.run packet) vars).map
      fun vars name => if name ∈ registerReferences then vars name else old name

def OnUserLogin : Operation := extract ["username","password","clientid"] []
  [.RETURN "username" "username" USERNAME_NOT_EXIST,
    .RETURN "password" "password" PASSWORD_NOT_EXIST]

def OnUserUpdate : Operation := extract ["uid","nickname","gender","birthday"] []
  [.RETURN "uid" "uid" UID_NOT_EXIST,
    .RETURN "nickname" "nickname" NICKNAME_NOT_EXIST,
    .RETURN "gender" "gender" SEX_NOT_EXIST,
    .RETURN "birthday" "birthday" BIRTHDAY_NOT_EXIST]

/-! ### ChatManager -/

def OnGetBestIdle : Operation := extract ["platformid"] [("default_platformid",ascii "10000")]
  [.DEFAULTPARAM "platformid" "platformid" "default_platformid"]

def OnGetHisChat : Operation := extract ["platformid","uid","tid","msgid","from","count"]
  [("default_platformid",ascii "10000"),("default_from",ascii "0"),("default_count",ascii "5")]
  [.RETURN "uid" "uid" UID_NOT_EXIST,
    .RETURN "tid" "tid" TID_NOT_EXIST,
    .RETURN "msgid" "tid" MSGID_NOT_EXIST,
    .DEFAULTPARAM "platformid" "platformid" "default_platformid",
    .DEFAULTPARAM "from" "from" "default_from",
    .DEFAULTPARAM "count" "count" "default_count"]

/-! ### MusicManager -/

def OnGetChannel : Operation := extract ["num"] [("default_num",ascii "5")]
  [.DEFAULTPARAM "num" "num" "default_num"]

def OnGetChannelSong : Operation := extract ["channel"] []
  [.RETURN "channel" "channel" CHANNEL_ID_NOT_EXIST]

def OnGetMoodAndScene : Operation := extract ["mode"] []
  [.RETURN "deword" "mode" MODE_NOT_EXIST]

/-- `tid` is no reference. -/
def OnGetMoodAndSceneMusic : Operation := extract ["mode"] []
  [.RETURN "mode" "mode" MODE_NOT_EXIST,
    .RETURN "wordid" "mode" MODE_ID_NOT_EXIST]

def OnGetSongInfo : Operation := extract ["songid"] []
  [.RETURN "songid" "songid" SONG_ID_NOT_EXIST]

def OnGetLyric : Operation := extract ["songid"] []
  [.RETURN "songid" "songid" SONG_ID_NOT_EXIST]

def OnGetHandselSong : Operation := extract ["uid","fromid","count","islike"]
  [("default_fromid",ascii "0"),("default_count",ascii "10"),("default_islike",ascii "0")]
  [.RETURN "uid" "uid" UID_NOT_EXIST,
    .DEFAULTPARAM "fromid" "fromid" "default_fromid",
    .DEFAULTPARAM "count" "count" "default_count",
    .DEFAULTPARAM "islike" "islike" "default_islike"]

def OnGetUpdateconfigFile : Operation := extract ["version","uid"] []
  [.RETURN "uid" "uid" UID_NOT_EXIST,
    .RETURN "version" "version" UID_NOT_EXIST]

def OnGetTypeSongs : Operation := extract ["uid","tid","typeindex","moodid","moodindex","sceneid","sceneindex","num"]
  [("default_num",ascii "5")]
  [.RETURN "uid" "uid" UID_NOT_EXIST,
    .RETURN "typeid" "tid" MODE_ID_NOT_EXIST,
    .RETURN "typeindex" "typeindex" TYPE_INDEX_NOT_EXIST,
    .RETURN "moodid" "moodid" MOOD_ID_NOT_EXIST,
    .RETURN "moodindex" "moodindex" MOOD_INDEX_NOT_EXIST,
    .RETURN "sceneid" "sceneid" SCENCE_ID_NOT_EXIST,
    .RETURN "sceneindex" "sceneindex" SCENE_INDEX_NOT_EXIST,
    .DEFAULTPARAM "num" "num" "default_num"]

def OnGetCollectionSong : Operation := extract ["uid","tid"] []
  [.RETURN "uid" "uid" UID_NOT_EXIST,
    .RETURN "taruid" "tid" TAR_UID_NOT_EXIST]

def OnSubmitCurrentListenSongs : Operation :=
  extract ["uid","mode","type_id","cur_song","last_song","name","singer","state"] []
  [.RETURN "uid" "uid" UID_NOT_EXIST,
    .RETURN "mode" "mode" MODE_NOT_EXIST,
    .RETURN "typeid" "type_id" MODE_ID_NOT_EXIST,
    .RETURN "cursong" "cur_song" CUR_SONG_NOT_EXIST,
    .RETURN "lastsong" "last_song" LAST_SONG_NOT_EXIST,
    .RETURN "name" "name" NAME_SONG_NOT_EXIST,
    .RETURN "singer" "singer" SINGER_NOT_EXIST,
    .RETURN "state" "state" STATE_NOT_EXIST]

def OnSubmitDelHateSongs : Operation := extract ["uid","songid"] []
  [.RETURN "uid" "uid" UID_NOT_EXIST,
    .RETURN "songid" "songid" SONG_ID_NOT_EXIST]

def OnSubmitDelCollectionSongs : Operation := extract ["uid","songid"] []
  [.RETURN "uid" "uid" UID_NOT_EXIST,
    .RETURN "songid" "songid" SONG_ID_NOT_EXIST]

def OnSubmitAddHateSongs : Operation := extract ["uid","songid","modetype","type_id"] []
  [.RETURN "uid" "uid" UID_NOT_EXIST,
    .RETURN "songid" "songid" SONG_ID_NOT_EXIST,
    .RETURN "modetype" "modetype" MODE_NOT_EXIST,
    .RETURN "typeid" "type_id" MODE_ID_NOT_EXIST]

def OnSubmitAddCollectionSongs : Operation := extract ["uid","songid","modetype","type_id"] []
  [.RETURN "uid" "uid" UID_NOT_EXIST,
    .RETURN "songid" "songid" SONG_ID_NOT_EXIST,
    .RETURN "modetype" "modetype" MODE_NOT_EXIST,
    .RETURN "typeid" "type_id" MODE_ID_NOT_EXIST]

def OnSubmitShareResult : Operation := extract ["uid","songid","share_plat"] []
  [.RETURN "uid" "uid" UID_NOT_EXIST,
    .RETURN "songid" "songid" SONG_ID_NOT_EXIST,
    .RETURN "share_plat" "share_plat" PLAT_ID_NOT_EXIST]

/-! ### LbsManager -/

def OnSetUserPos : Operation := extract ["uid","location"] []
  [.RETURN "uid" "uid" UID_NOT_EXIST,
    .RETURN "location" "location" UID_NOT_EXIST]

def OnNearSet : Operation := extract ["uid","location","page_index","page_size"]
  [("default_index",ascii "0"),("default_size",ascii "10")]
  [.RETURN "uid" "uid" UID_NOT_EXIST,
    .RETURN "location" "location" UID_NOT_EXIST,
    .DEFAULTPARAM "page_index" "page_index" "default_index",
    .DEFAULTPARAM "page_size" "default_index" "default_index"]

/-! ### Sociality -/

def OnPresentSong : Operation := extract ["uid","tuid","ext_msg"] []
  [.RETURN "uid" "uid" UID_NOT_EXIST,
    .RETURN "touid" "uid" TID_NOT_EXIST,
    .RETURN "msg" "ext_msg" EXT_MSG_NOT_EXIST]

def OnGetMsgPush : Operation := extract ["uid","page_index","page_size"]
  [("default_index",ascii "0"),("default_size",ascii "10")]
  [.RETURN "uid" "uid" UID_NOT_EXIST,
    .DEFAULTPARAM "page_index" "page_index" "default_index",
    .DEFAULTPARAM "page_size" "default_index" "default_index"]

def OnGetFriendList : Operation := extract ["uid","page_index","page_size"] [] []

def OnSayHello : Operation := extract ["uid","tuid","ext_msg"] []
  [.RETURN "uid" "uid" UID_NOT_EXIST,
    .RETURN "touid" "tuid" TID_NOT_EXIST,
    .RETURN "msg" "ext_msg" EXT_MSG_NOT_EXIST]

def OnMsgCommentSong : Operation := extract ["uid","songid","comment","tid"] [("default_tid",ascii "0")]
  [.RETURN "uid" "uid" UID_NOT_EXIST,
    .RETURN "songid" "songid" SONG_ID_NOT_EXIST,
    .RETURN "comment" "comment" COMMENT_MSG_NOT_EXIST,
    .DEFAULTPARAM "tarid" "tid" "default_tid"]

def OnGetComment : Operation := extract ["uid","songid","from","count"]
  [("default_from",ascii "0"),("default_count",ascii "10")]
  [.RETURN "uid" "uid" UID_NOT_EXIST,
    .RETURN "songid" "songid" SONG_ID_NOT_EXIST,
    .DEFAULTPARAM "page_index" "from" "default_from",
    .DEFAULTPARAM "page_size" "count" "default_count"]

def OnGetMusicUser : Operation := extract ["uid","from","count"]
  [("default_from",ascii "0"),("default_count",ascii "10")]
  [.RETURN "uid" "uid" UID_NOT_EXIST,
    .DEFAULTPARAM "page_index" "from" "default_from",
    .DEFAULTPARAM "page_size" "count" "default_count"]

def OnGetShareInfo : Operation := extract ["uid","songid","plat","mode","index","latitude","longitude"]
  [("default_latitude",ascii "30.2936"),("default_longitude",ascii "120.1614")]
  [.RETURN "uid" "uid" UID_NOT_EXIST,
    .RETURN "songid" "songid" SONG_ID_NOT_EXIST,
    .RETURN "plat" "plat" PLAT_ID_NOT_EXIST,
    .RETURN "mode" "mode" MODE_ID_NOT_EXIST,
    .RETURN "index" "index" MODE_ID_NOT_EXIST,
    .DEFAULTPARAM "latitude" "latitude" "default_latitude",
    .DEFAULTPARAM "longitude " "longitude" "default_longitude"]

def OnGiftLuckMessage : Operation := extract ["uid","songid","plat","mode"] []
  [.RETURN "uid" "uid" UID_NOT_EXIST,
    .RETURN "songid" "songid" SONG_ID_NOT_EXIST,
    .RETURN "plat" "plat" PLAT_ID_NOT_EXIST,
    .RETURN "mode" "mode" MODE_ID_NOT_EXIST]

/-! ### What is promised -/

/-- The value in the packet, empty if it is missing. -/
def value (packet : Packet) (key : String) : List UInt8 := (packet key).getD []

inductive Need
  | mandatory
  | optional (default_ : List UInt8)
  | undocumented
  deriving DecidableEq

/-- A parameter of an operation, with the argument that is its own. -/
structure Param where
  key : String
  out : String
  need : Need
  deriving DecidableEq

def must (key out : String) : Param := ⟨key,out,.mandatory⟩

def may (key out : String) (default_ : List UInt8) : Param := ⟨key,out,.optional default_⟩

/-- Parameters that are all there are extracted, without a mandatory one it fails with an error, and an optional one
that is missing has its default. -/
def Agrees (params : List Param) (packet : Packet) (result : Except Int Vars) : Prop :=
  ((∀ p ∈ params, value packet p.key ≠ []) → ∃ vars, result = .ok vars ∧ ∀ p ∈ params, vars p.out = value packet p.key) ∧
  ((∃ p ∈ params, p.need = .mandatory ∧ value packet p.key = []) → ∃ err, result = .error err ∧ err ≠ 0) ∧
  ((∀ p ∈ params, p.need = .mandatory → value packet p.key ≠ []) → ∀ p ∈ params, ∀ default_, p.need = .optional default_ →
    packet p.key = none → ∃ vars, result = .ok vars ∧ vars p.out = default_)

/-! ### Where it is right -/

/-- The arguments that are not served hold by chance what they should. -/
def Spared (params : List Param) (packet : Packet) (left : List (Param × List UInt8)) : Prop :=
  ((∀ p ∈ params, value packet p.key ≠ []) → ∀ p kept, (p,kept) ∈ left → kept = value packet p.key) ∧
  ((∀ p ∈ params, p.need = .mandatory → value packet p.key ≠ []) → ∀ p kept default_, (p,kept) ∈ left →
    p.need = .optional default_ → packet p.key = none → kept = default_)

/-! ### The uses -/

def Use.param : Use → String
  | .RETURN _ PARAM _ => PARAM
  | .DEFAULTPARAM _ PARAM _ => PARAM

def Use.needed : Use → Option String
  | .RETURN NAME _ _ => some NAME
  | .DEFAULTPARAM _ _ _ => none

/-- The error of a use, if it fails. -/
def Use.fails (packet : Packet) : Use → Option Int
  | .RETURN NAME _ ERR_CODE => if value packet NAME = [] then some ERR_CODE else none
  | .DEFAULTPARAM _ _ _ => none

/-- The variables after a use that does not fail. -/
def Use.settle (packet : Packet) (vars : Vars) : Use → Vars
  | .RETURN NAME PARAM _ => Function.update vars PARAM (value packet NAME)
  | .DEFAULTPARAM NAME PARAM DEFAULT =>
    let vars := GetAttrib packet NAME PARAM vars
    if value packet NAME = [] ∧ vars DEFAULT ≠ [] then Function.update vars PARAM (vars DEFAULT) else vars

theorem GetAttrib_given {packet : Packet} {NAME : String} (given : value packet NAME ≠ []) (PARAM : String) (vars : Vars) :
    GetAttrib packet NAME PARAM vars = Function.update vars PARAM (value packet NAME) := by
  rw [GetAttrib]
  cases found : packet NAME with
  | none =>
    rw [value,found] at given
    exact absurd rfl given
  | some text => rw [value,found,Option.getD_some]

/-- What the macros ask for. -/
theorem absent_iff (packet : Packet) (NAME PARAM : String) (vars : Vars) :
    packet NAME = none ∨ GetAttrib packet NAME PARAM vars PARAM = [] ↔ value packet NAME = [] := by
  rw [GetAttrib,value]
  cases packet NAME with
  | none => exact iff_of_true (Or.inl rfl) rfl
  | some text =>
    dsimp only
    rw [Function.update_self,Option.getD_some,or_iff_right (Option.some_ne_none text)]

theorem Use.run_eq (packet : Packet) (vars : Vars) (use : Use) : use.run packet vars =
    match use.fails packet with
    | some err => .error err
    | none => .ok (use.settle packet vars) := by
  cases use with
  | RETURN NAME PARAM ERR_CODE =>
    rw [Use.run,Use.fails]
    simp only [absent_iff]
    by_cases empty : value packet NAME = []
    · rw [if_pos empty,if_pos empty]
    · rw [if_neg empty,if_neg empty,GetAttrib_given empty]
      rfl
  | DEFAULTPARAM NAME PARAM DEFAULT =>
    rw [Use.run,Use.fails,Use.settle]
    simp only [absent_iff]
    by_cases empty : value packet NAME = []
    · rw [if_pos empty]
      by_cases some_ : GetAttrib packet NAME PARAM vars DEFAULT = []
      · rw [if_neg (not_not_intro some_),if_neg fun both => both.2 some_]
      · rw [if_pos some_,if_pos ⟨empty,some_⟩]
    · rw [if_neg empty,if_neg fun both => empty both.1]

/-- A run fails at the first use that does. -/
theorem run_uses (packet : Packet) (uses : List Use) (vars : Vars) : uses.foldlM (Use.run packet) vars =
    match uses.findSome? (Use.fails packet) with
    | some err => .error err
    | none => .ok (uses.foldl (Use.settle packet) vars) := by
  induction uses generalizing vars with
  | nil => rfl
  | cons use uses ih =>
    rw [List.foldlM_cons,Use.run_eq,List.findSome?_cons]
    cases use.fails packet with
    | some err => rfl
    | none => exact ih _

/-- The last use of a variable, with those before it, the last first. -/
def lastUse : List Use → String → Option (Use × List Use)
  | [],_ => none
  | use::earlier,out => if use.param = out then some (use,earlier) else lastUse earlier out

/-- The parameter is read where its argument is written last, and its default is what is put there. -/
def Serves (references : List String) (locals : List (String × List UInt8)) (uses : List Use) (p : Param) : Bool :=
  decide (p.out ∈ references) && match lastUse uses.reverse p.out,p.need with
    | some (.RETURN NAME _ _,_),.mandatory => decide (NAME = p.key)
    | some (.DEFAULTPARAM NAME _ DEFAULT,earlier),.optional default_ =>
      decide (NAME = p.key ∧ locals.lookup DEFAULT = some default_ ∧ default_ ≠ [] ∧ DEFAULT ∉ earlier.map Use.param ∧
        DEFAULT ≠ p.out)
    | _,_ => false

section Last
variable {packet : Packet} {vars : Vars}

/-- The variables after the uses, the last first. -/
def settled (packet : Packet) (vars : Vars) (uses : List Use) : Vars := uses.foldr (fun use vars => use.settle packet vars) vars

theorem GetAttrib_other {NAME PARAM out : String} (other : out ≠ PARAM) : GetAttrib packet NAME PARAM vars out = vars out := by
  rw [GetAttrib]
  cases packet NAME with
  | none => rfl
  | some text => exact Function.update_of_ne other ..

theorem settle_other {use : Use} {out : String} (other : out ≠ use.param) : use.settle packet vars out = vars out := by
  cases use with
  | RETURN NAME PARAM ERR_CODE => exact Function.update_of_ne other ..
  | DEFAULTPARAM NAME PARAM DEFAULT =>
    rw [Use.settle]
    split
    · exact (Function.update_of_ne other ..).trans (GetAttrib_other other)
    · exact GetAttrib_other other

theorem settled_other {uses : List Use} {out : String} (other : out ∉ uses.map Use.param) : settled packet vars uses out = vars out := by
  induction uses with
  | nil => rfl
  | cons use uses ih =>
    rw [List.map_cons,List.mem_cons,not_or] at other
    rw [settled,List.foldr_cons,settle_other other.1]
    exact ih other.2

theorem settled_last {uses : List Use} {out : String} {use : Use} {earlier : List Use} (last : lastUse uses out = some (use,earlier)) :
    use.param = out ∧ settled packet vars uses out = use.settle packet (settled packet vars earlier) out := by
  induction uses with
  | nil => cases last
  | cons first uses ih =>
    rw [lastUse] at last
    split at last
    · rename_i same
      cases last
      exact ⟨same,rfl⟩
    · rename_i other
      obtain ⟨same,found⟩ := ih last
      refine ⟨same,?_⟩
      rw [settled,List.foldr_cons,settle_other (Ne.symm other)]
      exact found

theorem settle_return {NAME PARAM : String} {ERR_CODE : Int} :
    (Use.RETURN NAME PARAM ERR_CODE).settle packet vars PARAM = value packet NAME := Function.update_self ..

theorem settle_given {NAME PARAM DEFAULT : String} (given : value packet NAME ≠ []) :
    (Use.DEFAULTPARAM NAME PARAM DEFAULT).settle packet vars PARAM = value packet NAME := by
  rw [Use.settle,GetAttrib_given given]
  rw [if_neg fun both => given both.1,Function.update_self]

theorem settle_absent {NAME PARAM DEFAULT : String} (absent : value packet NAME = []) (apart : DEFAULT ≠ PARAM) :
    (Use.DEFAULTPARAM NAME PARAM DEFAULT).settle packet vars PARAM =
      if vars DEFAULT ≠ [] then vars DEFAULT else (packet NAME).getD (vars PARAM) := by
  have same : GetAttrib packet NAME PARAM vars DEFAULT = vars DEFAULT := GetAttrib_other apart
  rw [Use.settle,same]
  by_cases some_ : vars DEFAULT = []
  · rw [if_neg fun both => both.2 some_,if_neg (not_not_intro some_),GetAttrib]
    cases packet NAME with
    | none => rfl
    | some text => exact Function.update_self ..
  · rw [if_pos ⟨absent,some_⟩,if_pos some_,Function.update_self]

end Last

/-- An argument that has its parameter, and its parameter's default if that is missing. -/
def Served (packet : Packet) (vars : Vars) (p : Param) : Prop :=
  (value packet p.key ≠ [] → vars p.out = value packet p.key) ∧
  ∀ default_, p.need = .optional default_ → packet p.key = none → vars p.out = default_

theorem Serves.served {references : List String} {locals : List (String × List UInt8)} {uses : List Use} {p : Param}
    (serves : Serves references locals uses p = true) (packet : Packet) (old : Vars) :
    p.out ∈ references ∧ Served packet (settled packet (declare locals old) uses.reverse) p := by
  obtain ⟨key,out,need⟩ := p
  rw [Serves,Bool.and_eq_true,decide_eq_true_eq] at serves
  obtain ⟨reference,last⟩ := serves
  refine ⟨reference,?_⟩
  dsimp only at last
  cases found : lastUse uses.reverse out with
  | none =>
    rw [found] at last
    cases last
  | some found' =>
    obtain ⟨use,earlier⟩ := found'
    rw [found] at last
    have written : use.param = out ∧ settled packet (declare locals old) uses.reverse out =
        use.settle packet (settled packet (declare locals old) earlier) out := settled_last found
    obtain ⟨same,reads⟩ := written
    cases use with
    | RETURN NAME PARAM ERR_CODE =>
      cases need with
      | mandatory =>
        cases same
        cases of_decide_eq_true last
        refine ⟨fun _ => reads.trans settle_return,fun _ other => ?_⟩
        cases other
      | optional default_ => cases last
      | undocumented => cases last
    | DEFAULTPARAM NAME PARAM DEFAULT =>
      cases need with
      | mandatory => cases last
      | undocumented => cases last
      | optional default_ =>
        cases same
        obtain ⟨rfl,declared,some_,before,apart⟩ := of_decide_eq_true last
        refine ⟨fun given => reads.trans (settle_given given),fun other same missing => ?_⟩
        cases same
        have kept : settled packet (declare locals old) earlier DEFAULT = default_ := by
          rw [settled_other before,declare,declared,Option.getD_some]
        have absent : value packet NAME = [] := by rw [value,missing,Option.getD_none]
        refine reads.trans ((settle_absent absent apart).trans ?_)
        rw [kept,if_pos some_]

/-! ### What is extracted -/

def Param.mandatory (p : Param) : Option String := if p.need = .mandatory then some p.key else none

def Use.code : Use → Option Int
  | .RETURN _ _ ERR_CODE => some ERR_CODE
  | .DEFAULTPARAM _ _ _ => none

section Extract
variable {references : List String} {locals : List (String × List UInt8)} {uses : List Use} {params : List Param}
  {packet : Packet} {old : Vars}

/-- What the caller's arguments hold after a run that does not fail. -/
def held (references : List String) (locals : List (String × List UInt8)) (uses : List Use) (packet : Packet) (old : Vars) : Vars :=
  fun name => if name ∈ references then settled packet (declare locals old) uses.reverse name else old name

theorem extract_eq (references : List String) (locals : List (String × List UInt8)) (uses : List Use) (packet : Packet) (old : Vars) :
    extract references locals uses packet old =
      match uses.findSome? (Use.fails packet) with
      | some err => .error err
      | none => .ok (held references locals uses packet old) := by
  rw [extract,run_uses]
  cases uses.findSome? (Use.fails packet) with
  | some err => rfl
  | none =>
    dsimp only
    rw [List.foldl_eq_foldr_reverse]
    rfl

theorem fails_none : uses.findSome? (Use.fails packet) = none ↔ ∀ NAME ∈ uses.filterMap Use.needed, value packet NAME ≠ [] := by
  rw [List.findSome?_eq_none_iff]
  constructor
  · intro all NAME member
    obtain ⟨use,listed,same⟩ := List.mem_filterMap.mp member
    have passes := all use listed
    cases use with
    | RETURN other PARAM ERR_CODE =>
      cases same
      rw [Use.fails,ite_eq_right_iff] at passes
      exact fun empty => Option.some_ne_none _ (passes empty)
    | DEFAULTPARAM other PARAM DEFAULT => cases same
  · intro all use listed
    cases use with
    | RETURN NAME PARAM ERR_CODE => exact if_neg (all NAME (List.mem_filterMap.mpr ⟨_,listed,rfl⟩))
    | DEFAULTPARAM NAME PARAM DEFAULT => rfl

theorem fails_code {err : Int} (failed : uses.findSome? (Use.fails packet) = some err) : err ∈ uses.filterMap Use.code := by
  obtain ⟨use,listed,fails⟩ := List.exists_of_findSome?_eq_some failed
  cases use with
  | RETURN NAME PARAM ERR_CODE =>
    rw [Use.fails] at fails
    split at fails
    · cases fails
      exact List.mem_filterMap.mpr ⟨_,listed,rfl⟩
    · cases fails
  | DEFAULTPARAM NAME PARAM DEFAULT => cases fails

theorem mem_mandatory {NAME : String} : NAME ∈ params.filterMap Param.mandatory ↔ ∃ p ∈ params, p.need = .mandatory ∧ p.key = NAME := by
  rw [List.mem_filterMap]
  refine exists_congr fun p => and_congr_right fun _ => ?_
  rw [Param.mandatory]
  split
  · rename_i need
    rw [Option.some.injEq]
    exact (and_iff_right need).symm
  · rename_i need
    exact iff_of_false (Option.some_ne_none _).symm fun both => need both.1

/-- Of an operation that asks for what is mandatory, and of which each parameter has its argument or is left. -/
theorem agrees_iff (strays : List Param) (needs : uses.filterMap Use.needed = params.filterMap Param.mandatory)
    (codes : 0 ∉ uses.filterMap Use.code) {left : List (Param × List UInt8)}
    (first : left.map Prod.fst = strays) (serves : ∀ p ∈ params, Serves references locals uses p = true ∨ p ∈ strays)
    (inside : ∀ p ∈ strays, p ∈ params)
    (kept : ∀ p text, (p,text) ∈ left → held references locals uses packet old p.out = text) :
    Agrees params packet (extract references locals uses packet old) ↔ Spared params packet left := by
  rw [extract_eq]
  have passes : uses.findSome? (Use.fails packet) = none ↔ ∀ p ∈ params, p.need = .mandatory → value packet p.key ≠ [] := by
    rw [fails_none,needs]
    constructor
    · intro all p member need
      exact all p.key (mem_mandatory.mpr ⟨p,member,need,rfl⟩)
    · intro all NAME member
      obtain ⟨p,listed,need,rfl⟩ := mem_mandatory.mp member
      exact all p listed need
  have served (p : Param) (member : p ∈ params) : Served packet (held references locals uses packet old) p ∨
      ∃ text, (p,text) ∈ left ∧ held references locals uses packet old p.out = text := by
    rcases serves p member with serves | listed
    · obtain ⟨reference,served⟩ := Serves.served serves packet old
      refine Or.inl ?_
      rw [Served,held,if_pos reference]
      exact served
    · rw [← first] at listed
      obtain ⟨⟨q,text⟩,entry,rfl⟩ := List.mem_map.mp listed
      exact Or.inr ⟨text,entry,kept _ _ entry⟩
  have fails : (∃ p ∈ params, p.need = .mandatory ∧ value packet p.key = []) →
      ∃ err, uses.findSome? (Use.fails packet) = some err ∧ err ≠ 0 := by
    intro ⟨p,member,need,empty⟩
    cases failed : uses.findSome? (Use.fails packet) with
    | none => exact absurd empty (passes.mp failed p member need)
    | some err => exact ⟨err,rfl,fun zero => codes (zero ▸ fails_code failed)⟩
  have member_of {p : Param} {text : List UInt8} (listed : (p,text) ∈ left) : p ∈ params :=
    inside p (first ▸ List.mem_map.mpr ⟨_,listed,rfl⟩)
  constructor
  · intro ⟨whole,_,defaults⟩
    constructor
    · intro given p text listed
      obtain ⟨vars,ran,values⟩ := whole given
      rw [passes.mpr fun p member _ => given p member] at ran
      cases ran
      rw [← kept p text listed]
      exact values p (member_of listed)
    · intro given p text default_ listed need missing
      obtain ⟨vars,ran,same⟩ := defaults given p (member_of listed) default_ need missing
      rw [passes.mpr given] at ran
      cases ran
      rw [← kept p text listed]
      exact same
  · intro ⟨whole,defaults⟩
    refine ⟨fun given => ?_,fun missing => ?_,fun given p member default_ need missing => ?_⟩
    · rw [passes.mpr fun p member _ => given p member]
      refine ⟨_,rfl,fun p member => ?_⟩
      rcases served p member with served | ⟨text,listed,same⟩
      · exact served.1 (given p member)
      · rw [same]
        exact whole given p text listed
    · obtain ⟨err,failed,nonzero⟩ := fails missing
      rw [failed]
      exact ⟨err,rfl,nonzero⟩
    · rw [passes.mpr given]
      refine ⟨_,rfl,?_⟩
      rcases served p member with served | ⟨text,listed,same⟩
      · exact served.2 default_ need missing
      · rw [same]
        exact defaults given p text default_ listed need missing

theorem agrees_fine (needs : uses.filterMap Use.needed = params.filterMap Param.mandatory)
    (codes : 0 ∉ uses.filterMap Use.code) (serves : ∀ p ∈ params, Serves references locals uses p = true) :
    Agrees params packet (extract references locals uses packet old) ↔ Spared params packet [] :=
  agrees_iff [] needs codes rfl (fun p member => Or.inl (serves p member)) (fun _ member => absurd member List.not_mem_nil)
    fun _ _ member => absurd member List.not_mem_nil

/-! ### What is left -/

theorem held_unused {out : String} (unused : out ∉ uses.reverse.map Use.param) (argument : locals.lookup out = none) :
    held references locals uses packet old out = old out := by
  rw [held,settled_other unused,declare,argument,Option.getD_none,ite_self]

theorem held_return {NAME out : String} {ERR_CODE : Int} {earlier : List Use} (reference : out ∈ references)
    (last : lastUse uses.reverse out = some (.RETURN NAME out ERR_CODE,earlier)) :
    held references locals uses packet old out = value packet NAME := by
  rw [held,if_pos reference,(settled_last last).2]
  exact settle_return

/-- A default that is empty is not assigned. -/
theorem held_empty {NAME out DEFAULT : String} {earlier : List Use} (reference : out ∈ references)
    (last : lastUse uses.reverse out = some (.DEFAULTPARAM NAME out DEFAULT,earlier)) (declared : locals.lookup DEFAULT = some [])
    (before : DEFAULT ∉ earlier.map Use.param) (apart : DEFAULT ≠ out) (first : out ∉ earlier.map Use.param)
    (argument : locals.lookup out = none) :
    held references locals uses packet old out = (packet NAME).getD (old out) := by
  have empty : settled packet (declare locals old) earlier DEFAULT = [] := by
    rw [settled_other before,declare,declared,Option.getD_some]
  have own : settled packet (declare locals old) earlier out = old out := by
    rw [settled_other first,declare,argument,Option.getD_none]
  rw [held,if_pos reference,(settled_last last).2]
  by_cases absent : value packet NAME = []
  · rw [settle_absent absent apart,empty,if_neg (not_not_intro rfl),own]
  · rw [settle_given absent]
    cases found : packet NAME with
    | none =>
      rw [value,found] at absent
      exact absurd rfl absent
    | some text => rw [value,found,Option.getD_some,Option.getD_some]

theorem held_default {NAME out DEFAULT : String} {default_ : List UInt8} {earlier : List Use} (reference : out ∈ references)
    (last : lastUse uses.reverse out = some (.DEFAULTPARAM NAME out DEFAULT,earlier))
    (declared : locals.lookup DEFAULT = some default_) (some_ : default_ ≠ []) (before : DEFAULT ∉ earlier.map Use.param)
    (apart : DEFAULT ≠ out) : held references locals uses packet old out =
      if value packet NAME = [] then default_ else value packet NAME := by
  have kept : settled packet (declare locals old) earlier DEFAULT = default_ := by
    rw [settled_other before,declare,declared,Option.getD_some]
  rw [held,if_pos reference,(settled_last last).2]
  by_cases absent : value packet NAME = []
  · rw [settle_absent absent apart,kept,if_pos some_,if_pos absent]
  · rw [settle_given absent,if_neg absent]

end Extract

/-! ### The operations -/

inductive Op
  | OnUserRegister
  | OnUserLogin
  | OnUserUpdate
  | OnGetBestIdle
  | OnGetHisChat
  | OnGetChannel
  | OnGetChannelSong
  | OnGetMoodAndScene
  | OnGetMoodAndSceneMusic
  | OnGetSongInfo
  | OnGetLyric
  | OnGetHandselSong
  | OnGetUpdateconfigFile
  | OnGetTypeSongs
  | OnGetCollectionSong
  | OnSubmitCurrentListenSongs
  | OnSubmitDelHateSongs
  | OnSubmitDelCollectionSongs
  | OnSubmitAddHateSongs
  | OnSubmitAddCollectionSongs
  | OnSubmitShareResult
  | OnSetUserPos
  | OnNearSet
  | OnPresentSong
  | OnGetMsgPush
  | OnGetFriendList
  | OnSayHello
  | OnMsgCommentSong
  | OnGetComment
  | OnGetMusicUser
  | OnGetShareInfo
  | OnGiftLuckMessage

namespace Op

def run : Op → Operation
  | OnUserRegister => HttpApi.OnUserRegister
  | OnUserLogin => HttpApi.OnUserLogin
  | OnUserUpdate => HttpApi.OnUserUpdate
  | OnGetBestIdle => HttpApi.OnGetBestIdle
  | OnGetHisChat => HttpApi.OnGetHisChat
  | OnGetChannel => HttpApi.OnGetChannel
  | OnGetChannelSong => HttpApi.OnGetChannelSong
  | OnGetMoodAndScene => HttpApi.OnGetMoodAndScene
  | OnGetMoodAndSceneMusic => HttpApi.OnGetMoodAndSceneMusic
  | OnGetSongInfo => HttpApi.OnGetSongInfo
  | OnGetLyric => HttpApi.OnGetLyric
  | OnGetHandselSong => HttpApi.OnGetHandselSong
  | OnGetUpdateconfigFile => HttpApi.OnGetUpdateconfigFile
  | OnGetTypeSongs => HttpApi.OnGetTypeSongs
  | OnGetCollectionSong => HttpApi.OnGetCollectionSong
  | OnSubmitCurrentListenSongs => HttpApi.OnSubmitCurrentListenSongs
  | OnSubmitDelHateSongs => HttpApi.OnSubmitDelHateSongs
  | OnSubmitDelCollectionSongs => HttpApi.OnSubmitDelCollectionSongs
  | OnSubmitAddHateSongs => HttpApi.OnSubmitAddHateSongs
  | OnSubmitAddCollectionSongs => HttpApi.OnSubmitAddCollectionSongs
  | OnSubmitShareResult => HttpApi.OnSubmitShareResult
  | OnSetUserPos => HttpApi.OnSetUserPos
  | OnNearSet => HttpApi.OnNearSet
  | OnPresentSong => HttpApi.OnPresentSong
  | OnGetMsgPush => HttpApi.OnGetMsgPush
  | OnGetFriendList => HttpApi.OnGetFriendList
  | OnSayHello => HttpApi.OnSayHello
  | OnMsgCommentSong => HttpApi.OnMsgCommentSong
  | OnGetComment => HttpApi.OnGetComment
  | OnGetMusicUser => HttpApi.OnGetMusicUser
  | OnGetShareInfo => HttpApi.OnGetShareInfo
  | OnGiftLuckMessage => HttpApi.OnGiftLuckMessage

end Op

/-- For a user of another platform the session is mandatory, for one's own the name and the password. -/
def registerParams (source : List UInt8) : List Param :=
  [must "source" "source"] ++
  (if source ≠ ascii "0" then [must "session" "session"] else [may "session" "session" (ascii "1")]) ++
  (if source = ascii "0" then [must "username" "username",must "password" "password"]
  else [may "username" "username" default_username,may "password" "password" default_username]) ++
  [may "nickname" "nickname" default_nickname,may "sex" "sex" (ascii "1"),may "birthday" "birthday" default_birthday,
    may "location" "location" [],may "address" "address" [],may "head" "head" []]

/-- The parameters of an operation. Where its body has nothing of one, nothing is known but its name. -/
def Op.params (packet : Packet) : Op → List Param
  | OnUserRegister => registerParams (value packet "source")
  | OnUserLogin => [must "username" "username",must "password" "password",⟨"clientid","clientid",.undocumented⟩]
  | OnUserUpdate => [must "uid" "uid",must "nickname" "nickname",must "gender" "gender",must "birthday" "birthday"]
  | OnGetBestIdle => [may "platformid" "platformid" (ascii "10000")]
  | OnGetHisChat =>
    [must "uid" "uid",must "tid" "tid",must "msgid" "msgid",may "platformid" "platformid" (ascii "10000"),
      may "from" "from" (ascii "0"),may "count" "count" (ascii "5")]
  | OnGetChannel => [may "num" "num" (ascii "5")]
  | OnGetChannelSong => [must "channel" "channel"]
  | OnGetMoodAndScene => [must "deword" "mode"]
  | OnGetMoodAndSceneMusic => [must "mode" "mode",must "wordid" "tid"]
  | OnGetSongInfo => [must "songid" "songid"]
  | OnGetLyric => [must "songid" "songid"]
  | OnGetHandselSong =>
    [must "uid" "uid",may "fromid" "fromid" (ascii "0"),may "count" "count" (ascii "10"),may "islike" "islike" (ascii "0")]
  | OnGetUpdateconfigFile => [must "uid" "uid",must "version" "version"]
  | OnGetTypeSongs =>
    [must "uid" "uid",must "typeid" "tid",must "typeindex" "typeindex",must "moodid" "moodid",must "moodindex" "moodindex",
      must "sceneid" "sceneid",must "sceneindex" "sceneindex",may "num" "num" (ascii "5")]
  | OnGetCollectionSong => [must "uid" "uid",must "taruid" "tid"]
  | OnSubmitCurrentListenSongs =>
    [must "uid" "uid",must "mode" "mode",must "typeid" "type_id",must "cursong" "cur_song",must "lastsong" "last_song",
      must "name" "name",must "singer" "singer",must "state" "state"]
  | OnSubmitDelHateSongs => [must "uid" "uid",must "songid" "songid"]
  | OnSubmitDelCollectionSongs => [must "uid" "uid",must "songid" "songid"]
  | OnSubmitAddHateSongs => [must "uid" "uid",must "songid" "songid",must "modetype" "modetype",must "typeid" "type_id"]
  | OnSubmitAddCollectionSongs => [must "uid" "uid",must "songid" "songid",must "modetype" "modetype",must "typeid" "type_id"]
  | OnSubmitShareResult => [must "uid" "uid",must "songid" "songid",must "share_plat" "share_plat"]
  | OnSetUserPos => [must "uid" "uid",must "location" "location"]
  | OnNearSet =>
    [must "uid" "uid",must "location" "location",may "page_index" "page_index" (ascii "0"),may "page_size" "page_size" (ascii "10")]
  | OnPresentSong => [must "uid" "uid",must "touid" "tuid",must "msg" "ext_msg"]
  | OnGetMsgPush => [must "uid" "uid",may "page_index" "page_index" (ascii "0"),may "page_size" "page_size" (ascii "10")]
  | OnGetFriendList =>
    [⟨"uid","uid",.undocumented⟩,⟨"page_index","page_index",.undocumented⟩,⟨"page_size","page_size",.undocumented⟩]
  | OnSayHello => [must "uid" "uid",must "touid" "tuid",must "msg" "ext_msg"]
  | OnMsgCommentSong =>
    [must "uid" "uid",must "songid" "songid",must "comment" "comment",may "tarid" "tid" (ascii "0")]
  | OnGetComment =>
    [must "uid" "uid",must "songid" "songid",may "page_index" "from" (ascii "0"),may "page_size" "count" (ascii "10")]
  | OnGetMusicUser => [must "uid" "uid",may "page_index" "from" (ascii "0"),may "page_size" "count" (ascii "10")]
  | OnGetShareInfo =>
    [must "uid" "uid",must "songid" "songid",must "plat" "plat",must "mode" "mode",must "index" "index",
      may "latitude" "latitude" (ascii "30.2936"),may "longitude" "longitude" (ascii "120.1614")]
  | OnGiftLuckMessage => [must "uid" "uid",must "songid" "songid",must "plat" "plat",must "mode" "mode"]

/-- The value that is kept or the value that was there; the empty default is never assigned. -/
def registerLeft (packet : Packet) (old : Vars) : List (Param × List UInt8) :=
  [(may "birthday" "birthday" default_birthday,old "birthday"),
    (may "address" "address" [],(packet "address").getD (old "address"))] ++
  if value packet "source" = ascii "0" then
    [(may "location" "location" [],(packet "location").getD (old "location")),
      (may "head" "head" [],(packet "head").getD (old "head"))]
  else [(may "sex" "sex" (ascii "1"),old "sex"),(may "location" "location" [],old "location"),(may "head" "head" [],old "head")]

/-- The parameters whose arguments are written from elsewhere or not at all, with what these hold then. -/
def Op.left (packet : Packet) (old : Vars) : Op → List (Param × List UInt8)
  | OnUserRegister => registerLeft packet old
  | OnUserLogin => [(⟨"clientid","clientid",.undocumented⟩,old "clientid")]
  | OnGetHisChat => [(must "tid" "tid",value packet "msgid"),(must "msgid" "msgid",old "msgid")]
  | OnGetMoodAndSceneMusic => [(must "mode" "mode",value packet "wordid"),(must "wordid" "tid",old "tid")]
  | OnNearSet => [(may "page_size" "page_size" (ascii "10"),old "page_size")]
  | OnPresentSong => [(must "uid" "uid",value packet "touid"),(must "touid" "tuid",old "tuid")]
  | OnGetMsgPush => [(may "page_size" "page_size" (ascii "10"),old "page_size")]
  | OnGetFriendList =>
    [(⟨"uid","uid",.undocumented⟩,old "uid"),(⟨"page_index","page_index",.undocumented⟩,old "page_index"),
      (⟨"page_size","page_size",.undocumented⟩,old "page_size")]
  | OnGetShareInfo =>
    [(may "longitude" "longitude" (ascii "120.1614"),
      if value packet "longitude " = [] then ascii "120.1614" else value packet "longitude ")]
  | _ => []

/-! ### OnUserRegister -/

theorem OnUserRegister_eq (packet : Packet) (old : Vars) : HttpApi.OnUserRegister packet old =
    extract registerReferences registerLocals (.RETURN "source" "source" SOURCE_NOT_EXIST::registerUses (value packet "source"))
      packet old := by
  rw [HttpApi.OnUserRegister,extract,List.foldlM_cons,Use.run_eq,Use.fails]
  by_cases empty : value packet "source" = []
  · rw [if_pos empty]
    rfl
  · rw [if_neg empty]
    change Except.map _ (List.foldlM _ _ (registerUses ((Use.RETURN "source" "source" SOURCE_NOT_EXIST).settle packet _ "source"))) = _
    rw [settle_return]
    rfl

theorem register_agrees (packet : Packet) (old : Vars) :
    Agrees (registerParams (value packet "source")) packet (HttpApi.OnUserRegister packet old) ↔
      Spared (registerParams (value packet "source")) packet (registerLeft packet old) := by
  rw [OnUserRegister_eq,registerLeft]
  by_cases ours : value packet "source" = ascii "0"
  · rw [if_pos ours,ours]
    refine agrees_iff [may "birthday" "birthday" default_birthday,may "address" "address" [],may "location" "location" [],
      may "head" "head" []] rfl (by decide) rfl (by decide) (by decide) ?_
    intro p text member
    simp only [List.cons_append,List.nil_append,List.mem_cons,List.not_mem_nil,or_false,Prod.mk.injEq] at member
    rcases member with ⟨rfl,rfl⟩ | ⟨rfl,rfl⟩ | ⟨rfl,rfl⟩ | ⟨rfl,rfl⟩
    · exact held_unused (by decide) rfl
    · exact held_empty (by decide) rfl rfl (by decide) (by decide) (by decide) rfl
    · exact held_empty (by decide) rfl rfl (by decide) (by decide) (by decide) rfl
    · exact held_empty (by decide) rfl rfl (by decide) (by decide) (by decide) rfl
  · rw [if_neg ours,registerUses,if_pos ours,if_neg ours,registerParams,if_pos ours,if_neg ours]
    refine agrees_iff [may "birthday" "birthday" default_birthday,may "address" "address" [],may "sex" "sex" (ascii "1"),
      may "location" "location" [],may "head" "head" []] rfl (by decide) rfl (by decide) (by decide) ?_
    intro p text member
    simp only [List.cons_append,List.nil_append,List.mem_cons,List.not_mem_nil,or_false,Prod.mk.injEq] at member
    rcases member with ⟨rfl,rfl⟩ | ⟨rfl,rfl⟩ | ⟨rfl,rfl⟩ | ⟨rfl,rfl⟩ | ⟨rfl,rfl⟩
    · exact held_unused (by decide) rfl
    · exact held_empty (by decide) rfl rfl (by decide) (by decide) (by decide) rfl
    · exact held_unused (by decide) rfl
    · exact held_unused (by decide) rfl
    · exact held_unused (by decide) rfl

/-! ### All of them -/

theorem run_agrees (op : Op) (packet : Packet) (old : Vars) :
    Agrees (op.params packet) packet (op.run packet old) ↔ Spared (op.params packet) packet (op.left packet old) := by
  cases op with
  | OnUserRegister => exact register_agrees packet old
  | OnUserLogin =>
    rw [Op.params,Op.left]
    refine agrees_iff [⟨"clientid","clientid",.undocumented⟩] rfl (by decide) rfl (by decide) (by decide) fun p text member => ?_
    cases List.mem_singleton.mp member
    exact held_unused (by decide) rfl
  | OnUserUpdate => exact agrees_fine rfl (by decide) (by rw [Op.params]; decide)
  | OnGetBestIdle => exact agrees_fine rfl (by decide) (by rw [Op.params]; decide)
  | OnGetHisChat =>
    rw [Op.params,Op.left]
    refine agrees_iff [must "tid" "tid",must "msgid" "msgid"] rfl (by decide) rfl (by decide) (by decide) fun p text member => ?_
    rcases List.mem_pair.mp member with same | same
    · cases same
      exact held_return (by decide) rfl
    · cases same
      exact held_unused (by decide) rfl
  | OnGetChannel => exact agrees_fine rfl (by decide) (by rw [Op.params]; decide)
  | OnGetChannelSong => exact agrees_fine rfl (by decide) (by rw [Op.params]; decide)
  | OnGetMoodAndScene => exact agrees_fine rfl (by decide) (by rw [Op.params]; decide)
  | OnGetMoodAndSceneMusic =>
    rw [Op.params,Op.left]
    refine agrees_iff [must "mode" "mode",must "wordid" "tid"] rfl (by decide) rfl (by decide) (by decide) fun p text member => ?_
    rcases List.mem_pair.mp member with same | same
    · cases same
      exact held_return (by decide) rfl
    · cases same
      exact held_unused (by decide) rfl
  | OnGetSongInfo => exact agrees_fine rfl (by decide) (by rw [Op.params]; decide)
  | OnGetLyric => exact agrees_fine rfl (by decide) (by rw [Op.params]; decide)
  | OnGetHandselSong => exact agrees_fine rfl (by decide) (by rw [Op.params]; decide)
  | OnGetUpdateconfigFile => exact agrees_fine rfl (by decide) (by rw [Op.params]; decide)
  | OnGetTypeSongs => exact agrees_fine rfl (by decide) (by rw [Op.params]; decide)
  | OnGetCollectionSong => exact agrees_fine rfl (by decide) (by rw [Op.params]; decide)
  | OnSubmitCurrentListenSongs => exact agrees_fine rfl (by decide) (by rw [Op.params]; decide)
  | OnSubmitDelHateSongs => exact agrees_fine rfl (by decide) (by rw [Op.params]; decide)
  | OnSubmitDelCollectionSongs => exact agrees_fine rfl (by decide) (by rw [Op.params]; decide)
  | OnSubmitAddHateSongs => exact agrees_fine rfl (by decide) (by rw [Op.params]; decide)
  | OnSubmitAddCollectionSongs => exact agrees_fine rfl (by decide) (by rw [Op.params]; decide)
  | OnSubmitShareResult => exact agrees_fine rfl (by decide) (by rw [Op.params]; decide)
  | OnSetUserPos => exact agrees_fine rfl (by decide) (by rw [Op.params]; decide)
  | OnNearSet =>
    rw [Op.params,Op.left]
    refine agrees_iff [may "page_size" "page_size" (ascii "10")] rfl (by decide) rfl (by decide) (by decide) fun p text member => ?_
    cases List.mem_singleton.mp member
    exact held_unused (by decide) rfl
  | OnPresentSong =>
    rw [Op.params,Op.left]
    refine agrees_iff [must "uid" "uid",must "touid" "tuid"] rfl (by decide) rfl (by decide) (by decide) fun p text member => ?_
    rcases List.mem_pair.mp member with same | same
    · cases same
      exact held_return (by decide) rfl
    · cases same
      exact held_unused (by decide) rfl
  | OnGetMsgPush =>
    rw [Op.params,Op.left]
    refine agrees_iff [may "page_size" "page_size" (ascii "10")] rfl (by decide) rfl (by decide) (by decide) fun p text member => ?_
    cases List.mem_singleton.mp member
    exact held_unused (by decide) rfl
  | OnGetFriendList =>
    rw [Op.params,Op.left]
    change Agrees _ packet (extract ["uid","page_index","page_size"] [] [] packet old) ↔ _
    refine agrees_iff [⟨"uid","uid",.undocumented⟩,⟨"page_index","page_index",.undocumented⟩,
      ⟨"page_size","page_size",.undocumented⟩] rfl (by decide) rfl (by decide) (by decide) fun p text member => ?_
    rcases List.mem_cons.mp member with same | member
    · cases same
      exact held_unused (by decide) rfl
    · rcases List.mem_pair.mp member with same | same
      · cases same
        exact held_unused (by decide) rfl
      · cases same
        exact held_unused (by decide) rfl
  | OnSayHello => exact agrees_fine rfl (by decide) (by rw [Op.params]; decide)
  | OnMsgCommentSong => exact agrees_fine rfl (by decide) (by rw [Op.params]; decide)
  | OnGetComment => exact agrees_fine rfl (by decide) (by rw [Op.params]; decide)
  | OnGetMusicUser => exact agrees_fine rfl (by decide) (by rw [Op.params]; decide)
  | OnGetShareInfo =>
    rw [Op.params,Op.left]
    refine agrees_iff [may "longitude" "longitude" (ascii "120.1614")] rfl (by decide) rfl (by decide) (by decide) fun p text member => ?_
    cases List.mem_singleton.mp member
    exact held_default (by decide) rfl rfl (by decide) (by decide) (by decide)
  | OnGiftLuckMessage => exact agrees_fine rfl (by decide) (by rw [Op.params]; decide)

/-- 1 gives 2 a song. -/
def present : Packet
  | "uid" => some (ascii "1")
  | "touid" => some (ascii "2")
  | "msg" => some (ascii "hi")
  | _ => none

/-- It is then from 2. -/
theorem present_crossed : ¬Agrees (Op.OnPresentSong.params present) present (Op.OnPresentSong.run present fun _ => []) := by
  intro ⟨whole,_,_⟩
  obtain ⟨vars,ran,values⟩ := whole (by decide)
  have given := values (must "uid" "uid") List.mem_cons_self
  cases ran
  revert given
  decide

end Migfm.Net.HttpApi
