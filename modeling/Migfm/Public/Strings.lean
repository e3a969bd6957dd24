import Migfm.Public.Json

/-! Every string of an object that is read stands between quotes in the document, and
is followed there by what may follow a member. -/
namespace Migfm.Public.Json

theorem readComment_token {text rest : List UInt8} {token : Token} (read : readComment text = (token,rest)) :
    token = .comment ∨ token = .error := by
  rw [readComment.eq_def] at read
  split at read
  case h_2 => split at read <;> cases read <;> simp
  all_goals cases read; simp

theorem readToken_string {text content rest : List UInt8} (read : readToken text = (.string content,rest)) :
    ∃ after, skipSpaces text = 34::after ∧ readString after = some (content,rest) := by
  rw [readToken] at read
  split at read
  case h_6 after first =>
    split at read
    · rename_i found
      cases read
      exact ⟨after,first,found⟩
    · cases read
  case h_7 => rcases readComment_token read with same | same <;> cases same
  all_goals try rw [word] at read
  all_goals try split at read
  all_goals cases read

/-- The character that a token starts with. -/
theorem readToken_first {text rest : List UInt8} {token : Token} (read : readToken text = (token,rest)) :
    (token = .objectEnd → (skipSpaces text).head? = some 125) ∧
    (token = .arraySeparator → (skipSpaces text).head? = some 44) ∧
    (token = .comment → (skipSpaces text).head? = some 47) := by
  rw [readToken] at read
  split at read
  case h_7 after first => rcases readComment_token read with rfl | rfl <;> simp [first]
  all_goals try rw [word] at read
  all_goals try split at read
  all_goals cases read
  all_goals simp [*]

/-- What may follow a member: a comma, a brace or a comment. -/
def Follows (rest : List UInt8) : Prop := ∃ c, (skipSpaces rest).head? = some c ∧ (c = 44 ∨ c = 125 ∨ c = 47)

theorem skipCommentTokens_read (text : List UInt8) : ∃ last, last <:+ text ∧ skipCommentTokens text = readToken last := by
  induction text using skipCommentTokens.induct with
  | case1 text rest read ih =>
    obtain ⟨last,suffix,same⟩ := ih
    refine ⟨last,suffix.trans ?_,?_⟩
    · have shorter := readToken_suffix text
      rw [read] at shorter
      exact shorter
    · rw [skipCommentTokens]
      split
      · rename_i found
        rw [read] at found
        cases found
        exact same
      · rename_i other
        exact absurd read (other rest)
  | case2 text other =>
    refine ⟨text,List.suffix_refl text,?_⟩
    rw [skipCommentTokens]
    split
    · rename_i rest read
      exact absurd read (other rest)
    · rfl

theorem skipCommentTokens_suffix {text rest : List UInt8} {token : Token} (read : skipCommentTokens text = (token,rest)) :
    rest <:+ text := by
  obtain ⟨last,suffix,same⟩ := skipCommentTokens_read text
  have shorter := readToken_suffix last
  rw [← same,read] at shorter
  exact shorter.trans suffix

theorem readComma_follows {text rest : List UInt8} {ends : Bool} (read : readComma text = some (ends,rest)) :
    Follows text ∧ rest <:+ text := by
  have suffix := readToken_suffix text
  rw [readComma] at read
  split at read
  · rename_i after token
    rw [token] at suffix
    cases read
    exact ⟨⟨125,(readToken_first token).1 rfl,.inr (.inl rfl)⟩,suffix⟩
  · rename_i after token
    rw [token] at suffix
    cases read
    exact ⟨⟨44,(readToken_first token).2.1 rfl,.inl rfl⟩,suffix⟩
  · rename_i after token
    rw [token] at suffix
    cases read
    exact ⟨⟨47,(readToken_first token).2.2 rfl,.inr (.inr rfl)⟩,(skipCommentTokens_suffix rfl).trans suffix⟩
  · cases read

theorem readColon_suffix {text rest : List UInt8} (read : readColon text = some rest) : rest <:+ text := by
  have suffix := readToken_suffix text
  rw [readColon] at read
  split at read
  · rename_i after token
    rw [token] at suffix
    cases read
    exact suffix
  · cases read

/-! ### The strings of an object -/

section Reading
variable (codePointToUTF8 : Nat → List UInt8) (sscanf : List UInt8 → Option Float)

/-- The string stands between quotes, in front of `rest`. -/
def Quoted (text value rest : List UInt8) : Prop :=
  ∃ after content, 34::after <:+ text ∧ readString after = some (content,rest) ∧
    decodeString codePointToUTF8 content = some value

/-- Such a string, followed by what may follow a member. -/
def Stands (text value : List UInt8) : Prop := ∃ rest, Quoted codePointToUTF8 text value rest ∧ Follows rest

variable {codePointToUTF8}

theorem Quoted.within {text whole value rest : List UInt8} (quoted : Quoted codePointToUTF8 text value rest)
    (suffix : text <:+ whole) : Quoted codePointToUTF8 whole value rest := by
  obtain ⟨after,content,starts,read⟩ := quoted
  exact ⟨after,content,starts.trans suffix,read⟩

theorem Stands.within {text whole value : List UInt8} (stands : Stands codePointToUTF8 text value)
    (suffix : text <:+ whole) : Stands codePointToUTF8 whole value := by
  obtain ⟨rest,quoted,follows⟩ := stands
  exact ⟨rest,quoted.within suffix,follows⟩

theorem skipCommentTokens_quoted {text content value rest : List UInt8}
    (read : skipCommentTokens text = (.string content,rest)) (decoded : decodeString codePointToUTF8 content = some value) :
    Quoted codePointToUTF8 text value rest := by
  obtain ⟨last,suffix,same⟩ := skipCommentTokens_read text
  obtain ⟨after,first,found⟩ := readToken_string (same.symm.trans read)
  have starts := skipSpaces_suffix last
  rw [first] at starts
  exact ⟨after,content,starts.trans suffix,found,decoded⟩

variable (codePointToUTF8)

theorem decodeNumber_string (token string : List UInt8) : decodeNumber sscanf token ≠ some (.string string) := by
  intro decoded
  rw [decodeNumber.eq_def] at decoded
  dsimp only at decoded
  split at decoded
  · simp at decoded
  · split at decoded
    all_goals split at decoded
    · simp at decoded
    · cases decoded
    · simp at decoded
    · rw [Option.some.injEq] at decoded
      split at decoded
      all_goals cases decoded

/-- One value, one object from some member on, one array from some item on. -/
structure Reads (fuel : Nat) : Prop where
  value {text rest : List UInt8} {value : Value} (read : readValue codePointToUTF8 sscanf fuel text = some (value,rest)) :
    rest <:+ text ∧ ∀ string, value = .string string → Quoted codePointToUTF8 text string rest
  object {members : List (List UInt8 × Value)} {name text rest : List UInt8} {value : Value}
    (read : readObject codePointToUTF8 sscanf fuel members name text = some (value,rest)) :
    rest <:+ text ∧ ∃ all, value = .object all ∧
      ∀ name string, (name,.string string) ∈ all → (name,.string string) ∈ members ∨ Stands codePointToUTF8 text string
  array {items : List Value} {text rest : List UInt8} {value : Value}
    (read : readArray codePointToUTF8 sscanf fuel items text = some (value,rest)) :
    rest <:+ text ∧ ∃ all, value = .array all

theorem reads (fuel : Nat) : Reads codePointToUTF8 sscanf fuel := by
  induction fuel with
  | zero =>
    constructor
    all_goals intros
    all_goals contradiction
  | succ fuel ih =>
    constructor
    · intro text rest value read
      rw [readValue] at read
      split at read
      all_goals rename_i tokens
      all_goals try have suffix := skipCommentTokens_suffix tokens
      · obtain ⟨within,all,rfl,-⟩ := ih.object read
        exact ⟨within.trans suffix,fun _ same => nomatch same⟩
      · split at read
        · rename_i inner _ after first
          cases read
          have within := skipSpaces_suffix inner
          rw [first] at within
          exact ⟨(List.suffix_cons 93 _).trans (within.trans suffix),fun _ same => nomatch same⟩
        · obtain ⟨within,all,rfl⟩ := ih.array read
          exact ⟨within.trans suffix,fun _ same => nomatch same⟩
      · rw [Option.map_eq_some_iff] at read
        obtain ⟨number,decoded,same⟩ := read
        cases same
        refine ⟨suffix,fun string same => ?_⟩
        rw [same] at decoded
        exact absurd decoded (decodeNumber_string sscanf _ string)
      · rw [Option.map_eq_some_iff] at read
        obtain ⟨string,decoded,same⟩ := read
        cases same
        refine ⟨suffix,fun _ same => ?_⟩
        cases same
        exact skipCommentTokens_quoted tokens decoded
      · cases read
        exact ⟨suffix,fun _ same => nomatch same⟩
      · cases read
        exact ⟨suffix,fun _ same => nomatch same⟩
      · cases read
        exact ⟨suffix,fun _ same => nomatch same⟩
      · cases read
    · intro members name text rest value read
      rw [readObject] at read
      split at read
      all_goals rename_i tokens
      all_goals try have suffix := skipCommentTokens_suffix tokens
      · split at read
        · cases read
          exact ⟨suffix,members,rfl,fun _ _ member => .inl member⟩
        · cases read
      · simp only [Option.bind_eq_bind,Option.bind_eq_some_iff] at read
        obtain ⟨next,-,afterColon,colon,⟨item,afterValue⟩,value_,⟨ends,afterComma⟩,comma,read⟩ := read
        have within := (readColon_suffix colon).trans suffix
        obtain ⟨shorter,quoted⟩ := ih.value value_
        obtain ⟨follows,last⟩ := readComma_follows comma
        -- the member that was read stands in the document
        have stands (string : List UInt8) (same : item = .string string) : Stands codePointToUTF8 text string :=
          ⟨afterValue,(quoted string same).within within,follows⟩
        have end_ := last.trans (shorter.trans within)
        split at read
        · cases read
          refine ⟨end_,_,rfl,fun name string member => ?_⟩
          rcases List.mem_cons.mp member with same | earlier
          · cases same
            exact .inr (stands string rfl)
          · exact .inl earlier
        · obtain ⟨more,all,rfl,members⟩ := ih.object read
          refine ⟨more.trans end_,all,rfl,fun name string member => ?_⟩
          rcases members name string member with earlier | later
          · rcases List.mem_cons.mp earlier with same | earlier
            · cases same
              exact .inr (stands string rfl)
            · exact .inl earlier
          · exact .inr (later.within end_)
      · cases read
    · intro items text rest value read
      rw [readArray] at read
      simp only [Option.bind_eq_bind,Option.bind_eq_some_iff] at read
      obtain ⟨⟨item,afterValue⟩,value_,read⟩ := read
      have shorter := (ih.value value_).1
      split at read
      all_goals rename_i tokens
      all_goals try have suffix := skipCommentTokens_suffix tokens
      · obtain ⟨more,all,rfl⟩ := ih.array read
        exact ⟨more.trans (suffix.trans shorter),all,rfl⟩
      · cases read
        exact ⟨suffix.trans shorter,_,rfl⟩
      · cases read

end Reading
end Migfm.Public.Json
