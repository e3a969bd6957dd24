import Migfm.Library.Words
import Migfm.Logic.ValueSerializer

/-! `ConverNum` of public/basic/basic_util.cc, and what its numerals denote by the place-value rules. -/
namespace Migfm.Public.Numerals
open Logic (decimal decimalDigits)

def letter : List (List Char) := [['零'],['一'],['两'],['三'],['四'],['五'],['六'],['七'],['八'],['九']]

def unit : List (List Char) := [[],['十'],['百'],['千'],['万'],['十'],['百'],['千'],['亿'],['十']]

/-- The loop over the digits; `first` is that `i` is 0. -/
def loop : List UInt8 → Bool → Bool → List Char → List Char
  | [],_,_,conver_num => conver_num
  | c::src,first,bPreZero,conver_num =>
    let digit := c.toNat - 48
    let unit_index := src.length
    if first ∧ digit = 1 ∧ (unit_index = 1 ∨ unit_index = 5 ∨ unit_index = 9) then
      loop src false bPreZero (conver_num ++ unit.getD unit_index [])
    else if digit = 0 then
      loop src false true (if unit_index = 4 ∨ unit_index = 8 then conver_num ++ unit.getD unit_index [] else conver_num)
    else
      loop src false false
        ((if bPreZero then conver_num ++ letter.getD 0 [] else conver_num) ++ letter.getD digit [] ++ unit.getD unit_index [])

def ConverNum (num : Int32) (conver_num : List Char) : List Char :=
  let src := decimal num.toInt
  if num < 0 then loop src.tail true false (conver_num ++ ['负']) else loop src true false conver_num

/-! ### The place-value rules -/

inductive Sign
  | zero
  | digit (d : Nat)
  | unit (u : Nat)
  | marker (m : Nat)

def signs : List (Char × Sign) :=
  [('零',.zero),('一',.digit 1),('两',.digit 2),('三',.digit 3),('四',.digit 4),('五',.digit 5),('六',.digit 6),('七',.digit 7),
    ('八',.digit 8),('九',.digit 9),('十',.unit 10),('百',.unit 100),('千',.unit 1000),('万',.marker 10000),('亿',.marker 100000000)]

/-- What has been read: the closed sections with the last marker, and the open one with its last unit and a digit
that has no unit yet. -/
structure Reading where
  total : Nat
  closed : Nat
  opened : Nat
  least : Nat
  digit : Option Nat

namespace Reading

def start : Reading := ⟨0,10^12,0,10^4,none⟩

/-- Units and markers go down. A marker closes a section that is not zero; only a leading ten is without its digit. -/
def take (reading : Reading) : Sign → Option Reading
  | .zero => if reading.digit = none then some reading else none
  | .digit d => if reading.digit = none then some { reading with digit := some d } else none
  | .unit u =>
    if reading.least ≤ u then none
    else if reading.digit = none ∧ ¬(u = 10 ∧ reading.total = 0 ∧ reading.opened = 0) then none
    else some { reading with opened := reading.opened + reading.digit.getD 1 * u, least := u, digit := none }
  | .marker m =>
    let value := reading.opened + reading.digit.getD 0
    if reading.closed ≤ m ∨ value = 0 then none else some ⟨reading.total + value * m,m,0,10^4,none⟩

def step (reading : Reading) (c : Char) : Option Reading := (signs.lookup c).bind reading.take

def value (reading : Reading) : Nat := reading.total + reading.opened + reading.digit.getD 0

end Reading

/-- The number that a text denotes, if it is a numeral. -/
def denotes (text : List Char) : Option Int :=
  if text.head? = some '负' then (text.tail.foldlM Reading.step .start).map fun reading => -(reading.value : Int)
  else (text.foldlM Reading.step .start).map fun reading => (reading.value : Int)

/-- A text is appended that denotes the number, and no other number has it. -/
def Right (num : Int32) : Prop :=
  ∃ text, (∀ conver_num, ConverNum num conver_num = conver_num ++ text) ∧ text ≠ [] ∧ denotes text = some num.toInt ∧
    ∀ other, ConverNum other [] = text → other = num

/-! ### One digit -/

/-- `n` digits are still to come behind those of `V`. -/
structure At (V n : Nat) (reading : Reading) : Prop where
  digit : 0 < n → reading.digit = none
  total : reading.total = V / 10 ^ ((n - 1) / 4 * 4 + 4 - n) * 10 ^ ((n - 1) / 4 * 4 + 4)
  opened : reading.opened + reading.digit.getD 0 = V % 10 ^ ((n - 1) / 4 * 4 + 4 - n) * 10 ^ (n - (n - 1) / 4 * 4)
  least : 10 ^ (n - (n - 1) / 4 * 4) ≤ reading.least
  closed : 10 ^ ((n - 1) / 4 * 4 + 4) ≤ reading.closed

theorem At.start {n : Nat} (few : n ≤ 10) : At 0 n .start := by
  refine ⟨fun _ => rfl,?_,?_,?_,?_⟩
  · rw [Nat.zero_div,Nat.zero_mul]
    rfl
  · rw [Nat.zero_mod,Nat.zero_mul]
    rfl
  · change _ ≤ 10 ^ 4
    exact Nat.pow_le_pow_right (by decide) (by omega)
  · have few : (n - 1) / 4 * 4 + 4 ≤ 12 := by omega
    exact Nat.pow_le_pow_right (Nat.succ_pos 9) few

theorem letter_sign {d : Nat} (positive : d ≠ 0) (digit : d ≤ 9) :
    ∃ c, letter.getD d [] = [c] ∧ signs.lookup c = some (.digit d) := by
  interval_cases d
  · exact absurd rfl positive
  all_goals exact ⟨_,rfl,rfl⟩

theorem places_succ (V k : Nat) {d : Nat} (small : d ≤ 9) :
    (10 * V + d) / 10 ^ (k + 1) = V / 10 ^ k ∧ (10 * V + d) % 10 ^ (k + 1) = 10 * (V % 10 ^ k) + d := by
  have first : (10 * V + d) / 10 = V := by omega
  have last : (10 * V + d) % 10 = d := by omega
  rw [pow_succ',← Nat.div_div_eq_div_mul,Nat.mod_mul,first,last]
  exact ⟨rfl,Nat.add_comm ..⟩

/-- Within a section one digit more is counted in its place. -/
theorem At.next {V d n : Nat} {reading : Reading} (at_ : At V (n + 1) reading) (few : n ≤ 9) (inside : ¬(n = 4 ∨ n = 8)) (small : d ≤ 9)
    {opened least : Nat} {digit : Option Nat} (none_ : 0 < n → digit = none)
    (counts : opened + digit.getD 0 = reading.opened + d * 10 ^ (n - (n - 1) / 4 * 4))
    (bound : 10 ^ (n - (n - 1) / 4 * 4) ≤ least) :
    At (10 * V + d) n { reading with opened := opened, least := least, digit := digit } := by
  have base : (n + 1 - 1) / 4 * 4 = (n - 1) / 4 * 4 := by omega
  have places : (n - 1) / 4 * 4 + 4 - n = (n - 1) / 4 * 4 + 4 - (n + 1) + 1 := by omega
  have weight : n + 1 - (n - 1) / 4 * 4 = n - (n - 1) / 4 * 4 + 1 := by omega
  have before := at_.opened
  rw [at_.digit (Nat.succ_pos n),Option.getD_none,Nat.add_zero,base,weight,pow_succ] at before
  refine ⟨none_,?_,?_,bound,base ▸ at_.closed⟩
  · rw [places,(places_succ V _ small).1,← base]
    exact at_.total
  · rw [places,(places_succ V _ small).2]
    change opened + digit.getD 0 = _
    rw [counts,before]
    ring

/-- A zero leaves no text, but for the marker that it may be in the place of. -/
theorem At.zero {V n : Nat} {reading : Reading} (at_ : At V (n + 1) reading) (few : n ≤ 9) (inside : ¬(n = 4 ∨ n = 8)) : At (10 * V) n reading := by
  have none_ := at_.digit (Nat.succ_pos n)
  have base : (n + 1 - 1) / 4 * 4 = (n - 1) / 4 * 4 := by omega
  have bound : 10 ^ (n - (n - 1) / 4 * 4) ≤ 10 ^ (n + 1 - (n - 1) / 4 * 4) := Nat.pow_le_pow_right (Nat.succ_pos 9) (by omega)
  have same : reading.opened + reading.digit.getD 0 = reading.opened + 0 * 10 ^ (n - (n - 1) / 4 * 4) := by
    rw [none_,Nat.zero_mul]
    rfl
  exact at_.next few inside (Nat.zero_le 9) (fun _ => none_) same (bound.trans (base ▸ at_.least))

theorem lookup_zero : signs.lookup '零' = some .zero := rfl

/-- What closes a section, and with it 10^4 or 10^8. -/
theorem unit_marker {n : Nat} (marks : n = 4 ∨ n = 8) : ∃ c, unit.getD n [] = [c] ∧ signs.lookup c = some (.marker (10 ^ n)) := by
  rcases marks with rfl | rfl <;> exact ⟨_,rfl,rfl⟩

theorem unit_unit {n : Nat} (few : n ≤ 9) (inside : ¬(n = 0 ∨ n = 4 ∨ n = 8)) :
    ∃ c, unit.getD n [] = [c] ∧ signs.lookup c = some (.unit (10 ^ (n - (n - 1) / 4 * 4))) := by
  interval_cases n
  all_goals first | exact ⟨_,rfl,rfl⟩ | exact absurd (by decide) inside

theorem take_marker (reading : Reading) (m : Nat) : reading.take (.marker m) =
    if reading.closed ≤ m ∨ reading.opened + reading.digit.getD 0 = 0 then none
    else some ⟨reading.total + (reading.opened + reading.digit.getD 0) * m,m,0,10^4,none⟩ := rfl

/-- A marker closes the section of the digits so far, unless that is zero. -/
theorem At.marker {V d n : Nat} {reading : Reading} (at_ : At V (n + 1) reading) (marks : n = 4 ∨ n = 8) (small : d ≤ 9) :
    if (10 * V + d) % 10 ^ 4 = 0 then { reading with digit := some d }.take (.marker (10 ^ n)) = none
    else ∃ next, { reading with digit := some d }.take (.marker (10 ^ n)) = some next ∧ At (10 * V + d) n next := by
  obtain ⟨digit,total,opened,least,closed⟩ := at_
  rw [digit (Nat.succ_pos n)] at opened
  have value : reading.opened + d = (10 * V + d) % 10 ^ 4 := by
    rcases marks with rfl | rfl <;> simp at opened ⊢ <;> omega
  have room : ¬reading.closed ≤ 10 ^ n := by
    rcases marks with rfl | rfl <;> simp at closed ⊢ <;> omega
  rw [take_marker]
  by_cases zero : (10 * V + d) % 10 ^ 4 = 0
  · rw [if_pos zero]
    exact if_pos (.inr (value.trans zero))
  · rw [if_neg zero]
    refine ⟨_,if_neg (not_or.mpr ⟨room,fun none_ => zero (value.symm.trans none_)⟩),fun _ => rfl,?_,?_,?_,?_⟩
    · change reading.total + (reading.opened + d) * 10 ^ n = _
      rw [value]
      rcases marks with rfl | rfl <;> simp at total ⊢ <;> omega
    · rcases marks with rfl | rfl <;> simp <;> omega
    · rcases marks with rfl | rfl <;> exact le_rfl
    · rcases marks with rfl | rfl <;> exact le_rfl

/-- A unit takes its digit into the section. -/
theorem At.unit {V d n : Nat} {reading : Reading} (at_ : At V (n + 1) reading) (few : n ≤ 9) (inside : ¬(n = 4 ∨ n = 8)) (small : d ≤ 9) :
    ∃ next, { reading with digit := some d }.take (.unit (10 ^ (n - (n - 1) / 4 * 4))) = some next ∧ At (10 * V + d) n next := by
  have base : (n + 1 - 1) / 4 * 4 = (n - 1) / 4 * 4 := by omega
  have less : 10 ^ (n - (n - 1) / 4 * 4) < 10 ^ (n + 1 - (n - 1) / 4 * 4) := Nat.pow_lt_pow_right (Nat.one_lt_succ_succ 8) (by omega)
  have room : ¬reading.least ≤ 10 ^ (n - (n - 1) / 4 * 4) := Nat.not_le.mpr (less.trans_le (base ▸ at_.least))
  rw [Reading.take]
  dsimp only
  rw [if_neg room,if_neg fun lacks => nomatch lacks.1]
  exact ⟨_,rfl,at_.next few inside small (fun _ => rfl) rfl le_rfl⟩

/-- The last digit stays without a unit. -/
theorem At.last {V d : Nat} {reading : Reading} (at_ : At V 1 reading) (small : d ≤ 9) :
    At (10 * V + d) 0 { reading with digit := some d } := by
  have counts : reading.opened + (some d).getD 0 = reading.opened + d * 10 ^ (0 - (0 - 1) / 4 * 4) :=
    congrArg (reading.opened + ·) (Nat.mul_one d).symm
  exact at_.next (Nat.zero_le 9) (by decide) small (fun positive => absurd positive (lt_irrefl 0)) counts
    ((Nat.succ_pos 9).trans_le at_.least)

/-- A leading ten. -/
theorem At.ten {n : Nat} {reading : Reading} (at_ : At 0 (n + 1) reading) (ten : n = 1 ∨ n = 5 ∨ n = 9) :
    ∃ next, reading.take (.unit 10) = some next ∧ At 1 n next := by
  obtain ⟨digit,total,opened,least,closed⟩ := at_
  have none_ := digit (Nat.succ_pos n)
  rw [none_] at opened
  have empty : reading.total = 0 ∧ reading.opened = 0 := by
    rw [Nat.zero_div,Nat.zero_mul] at total
    rw [Nat.zero_mod,Nat.zero_mul,Option.getD_none,Nat.add_zero] at opened
    exact ⟨total,opened⟩
  have room : ¬reading.least ≤ 10 := by
    rcases ten with rfl | rfl | rfl <;> simp at least ⊢ <;> omega
  rw [Reading.take,if_neg room,if_neg fun lacks => lacks.2 ⟨rfl,empty⟩]
  refine ⟨_,rfl,fun _ => rfl,?_,?_,?_,?_⟩
  · rw [empty.1]
    rcases ten with rfl | rfl | rfl <;> decide
  · rw [empty.2,none_]
    rcases ten with rfl | rfl | rfl <;> rfl
  · rcases ten with rfl | rfl | rfl <;> exact le_rfl
  · rcases ten with rfl | rfl | rfl <;> simp at closed ⊢ <;> omega

/-! ### The loop -/

theorem loop_append (src : List UInt8) (first bPreZero : Bool) (conver_num : List Char) :
    loop src first bPreZero conver_num = conver_num ++ loop src first bPreZero [] := by
  induction src generalizing first bPreZero conver_num with
  | nil => rw [loop,loop,List.append_nil]
  | cons c src ih =>
    rw [loop,loop]
    split_ifs
    any_goals exact ih ..
    all_goals
      conv_lhs => rw [ih]
      conv_rhs => rw [ih]
      simp only [List.append_assoc,List.nil_append]

/-- What is appended for a digit that does not lead. -/
def digitText (d unit_index : Nat) (bPreZero : Bool) : List Char :=
  if d = 0 then if unit_index = 4 ∨ unit_index = 8 then unit.getD unit_index [] else []
  else (if bPreZero then letter.getD 0 [] else []) ++ letter.getD d [] ++ unit.getD unit_index []

theorem loop_cons (c : UInt8) (src : List UInt8) (bPreZero : Bool) :
    loop (c::src) false bPreZero [] =
      digitText (c.toNat - 48) src.length bPreZero ++ loop src false (decide (c.toNat - 48 = 0)) [] := by
  rw [loop,digitText]
  rw [if_neg fun leads => Bool.false_ne_true leads.1]
  by_cases zero : c.toNat - 48 = 0
  · rw [if_pos zero,if_pos zero,loop_append,decide_eq_true zero]
    rfl
  · rw [if_neg zero,if_neg zero,loop_append,decide_eq_false zero]
    cases bPreZero <;> rfl

theorem foldlM_sign {c : Char} {sign : Sign} (found : signs.lookup c = some sign) (reading : Reading) :
    [c].foldlM Reading.step reading = reading.take sign := by
  rw [List.foldlM_cons,Reading.step,found,Option.bind_some]
  exact Option.bind_fun_some _

/-- The text of a digit is read with it, unless a marker would close a section of zeros. -/
theorem digitText_reads {V d n : Nat} {reading : Reading} (at_ : At V (n + 1) reading) (few : n ≤ 9) (small : d ≤ 9)
    (bPreZero : Bool) :
    if (n = 4 ∨ n = 8) ∧ (10 * V + d) % 10 ^ 4 = 0 then (digitText d n bPreZero).foldlM Reading.step reading = none
    else ∃ next, (digitText d n bPreZero).foldlM Reading.step reading = some next ∧ At (10 * V + d) n next := by
  have none_ := at_.digit (Nat.succ_pos n)
  have keep : reading = { reading with digit := none } := none_ ▸ rfl
  by_cases zero : d = 0
  · subst zero
    rw [digitText,if_pos rfl]
    by_cases marks : n = 4 ∨ n = 8
    · obtain ⟨c,text,sign⟩ := unit_marker marks
      have closes := at_.marker marks (Nat.zero_le 9)
      have same : ({ reading with digit := some 0 } : Reading).take (.marker (10 ^ n)) = reading.take (.marker (10 ^ n)) := by
        rw [take_marker,take_marker,none_]
        rfl
      rw [same,← foldlM_sign sign,← text] at closes
      rw [if_pos marks]
      simpa only [marks,true_and] using closes
    · rw [if_neg marks,if_neg fun both => marks both.1]
      exact ⟨reading,rfl,at_.zero few marks⟩
  · obtain ⟨c,text,sign⟩ := letter_sign zero small
    -- the zero in front is skipped
    have front : ((if bPreZero then letter.getD 0 [] else []) ++ letter.getD d []).foldlM Reading.step reading =
        some { reading with digit := some d } := by
      have digit : (letter.getD d []).foldlM Reading.step reading = some { reading with digit := some d } := by
        rw [text,foldlM_sign sign]
        exact if_pos none_
      cases bPreZero with
      | false => exact digit
      | true =>
        have skipped : (letter.getD 0 []).foldlM Reading.step reading = some reading :=
          (foldlM_sign lookup_zero reading).trans (if_pos none_)
        rw [if_pos rfl,List.foldlM_append,skipped]
        exact digit
    rw [digitText,if_neg zero,List.foldlM_append,front,Option.bind_eq_bind,Option.bind_some]
    by_cases marks : n = 4 ∨ n = 8
    · obtain ⟨c,text,sign⟩ := unit_marker marks
      have closes := at_.marker marks small
      rw [← foldlM_sign sign,← text] at closes
      simpa only [marks,true_and] using closes
    · rw [if_neg fun both => marks both.1]
      by_cases last : n = 0
      · subst last
        exact ⟨_,rfl,at_.last small⟩
      · obtain ⟨c,text,sign⟩ := unit_unit few (by omega)
        obtain ⟨next,taken,after⟩ := at_.unit few marks small
        refine ⟨next,?_,after⟩
        rw [text]
        exact (foldlM_sign sign _).trans taken

/-- The value of digits behind those of `V`. -/
def value (V : Nat) (src : List UInt8) : Nat := src.foldl (fun n digit => 10 * n + (digit.toNat - 48)) V

theorem value_div {src : List UInt8} (each : ∀ c ∈ src, Logic.isDigit c.toNat) (V : Nat) : value V src / 10 ^ src.length = V := by
  induction src generalizing V with
  | nil => exact Nat.div_one V
  | cons c src ih =>
    obtain ⟨digit,each⟩ := List.forall_mem_cons.mp each
    rw [Logic.isDigit,decide_eq_true_iff] at digit
    have later := ih each (10 * V + (c.toNat - 48))
    rw [List.length_cons,pow_succ,← Nat.div_div_eq_div_mul]
    change value (10 * V + (c.toNat - 48)) src / 10 ^ src.length / 10 = V
    rw [later]
    omega

/-- The digits behind are read, unless the ten thousands among them are all zero. -/
theorem loop_reads {src : List UInt8} (each : ∀ c ∈ src, Logic.isDigit c.toNat) (few : src.length ≤ 9) {V : Nat} (positive : V ≠ 0)
    (bounded : value V src < 10 ^ 10) (bPreZero : Bool) {reading : Reading} (at_ : At V src.length reading) :
    if 5 ≤ src.length ∧ value V src / 10 ^ 4 % 10 ^ 4 = 0 then (loop src false bPreZero []).foldlM Reading.step reading = none
    else ∃ last, (loop src false bPreZero []).foldlM Reading.step reading = some last ∧ At (value V src) 0 last := by
  induction src generalizing V bPreZero reading with
  | nil => exact ⟨reading,rfl,at_⟩
  | cons c src ih =>
    obtain ⟨digit,each⟩ := List.forall_mem_cons.mp each
    rw [Logic.isDigit,decide_eq_true_iff] at digit
    have places := value_div each (10 * V + (c.toNat - 48))
    change value (10 * V + (c.toNat - 48)) src < 10 ^ 10 at bounded
    change if 5 ≤ src.length + 1 ∧ value (10 * V + (c.toNat - 48)) src / 10 ^ 4 % 10 ^ 4 = 0 then _ else ∃ last, _ ∧
      At (value (10 * V + (c.toNat - 48)) src) 0 last
    rw [List.length_cons] at few at_
    have read := digitText_reads at_ (Nat.le_of_succ_le few) (by omega : c.toNat - 48 ≤ 9) bPreZero
    have later := @ih each (Nat.le_of_succ_le few) (10 * V + (c.toNat - 48)) (by omega) bounded (decide (c.toNat - 48 = 0))
    rw [loop_cons,List.foldlM_append]
    generalize value (10 * V + (c.toNat - 48)) src = N at *
    by_cases four : src.length = 4
    · rw [four] at places read ⊢
      rw [places]
      by_cases zeros : (10 * V + (c.toNat - 48)) % 10 ^ 4 = 0
      · rw [if_pos ⟨.inl rfl,zeros⟩] at read
        rw [if_pos ⟨le_rfl,zeros⟩,read]
        rfl
      · rw [if_neg fun both => zeros both.2] at read
        obtain ⟨next,read,after⟩ := read
        have last := later (four ▸ after)
        rw [if_neg fun both => by omega] at last
        rw [if_neg fun both => zeros both.2,read]
        exact last
    · have passes : ¬((src.length = 4 ∨ src.length = 8) ∧ (10 * V + (c.toNat - 48)) % 10 ^ 4 = 0) := by
        rintro ⟨marks,zeros⟩
        have eight := marks.resolve_left four
        rw [eight] at places
        omega
      rw [if_neg passes] at read
      obtain ⟨next,read,after⟩ := read
      have same : (5 ≤ src.length + 1 ∧ N / 10 ^ 4 % 10 ^ 4 = 0) ↔ (5 ≤ src.length ∧ N / 10 ^ 4 % 10 ^ 4 = 0) := by omega
      rw [read]
      simp only [same]
      exact later after

theorem loop_ten {c : UInt8} {src : List UInt8} (one : c.toNat - 48 = 1)
    (place : src.length = 1 ∨ src.length = 5 ∨ src.length = 9) :
    loop (c::src) true false [] = unit.getD src.length [] ++ loop src false false [] := by
  rw [loop,if_pos ⟨rfl,one,place⟩,loop_append]
  rfl

theorem loop_other {c : UInt8} {src : List UInt8}
    (other : ¬(c.toNat - 48 = 1 ∧ (src.length = 1 ∨ src.length = 5 ∨ src.length = 9))) :
    loop (c::src) true false [] = loop (c::src) false false [] := by
  have here : ¬(true = true ∧ c.toNat - 48 = 1 ∧ (src.length = 1 ∨ src.length = 5 ∨ src.length = 9)) := fun here => other here.2
  have later : ¬(false = true ∧ c.toNat - 48 = 1 ∧ (src.length = 1 ∨ src.length = 5 ∨ src.length = 9)) := fun here => other here.2
  rw [loop,loop,if_neg here,if_neg later]

/-- From the first digit on. -/
theorem loop_reads_first {c : UInt8} {src : List UInt8} (each : ∀ digit ∈ c::src, Logic.isDigit digit.toNat) (leads : c ≠ 48)
    (bounded : value 0 (c::src) < 10 ^ 10) :
    if 5 ≤ src.length ∧ value 0 (c::src) / 10 ^ 4 % 10 ^ 4 = 0 then (loop (c::src) true false []).foldlM Reading.step .start = none
    else ∃ last, (loop (c::src) true false []).foldlM Reading.step .start = some last ∧ At (value 0 (c::src)) 0 last := by
  obtain ⟨digit,each⟩ := List.forall_mem_cons.mp each
  rw [Logic.isDigit,decide_eq_true_iff] at digit
  have other : c.toNat ≠ 48 := fun same => leads (UInt8.toNat_inj.mp same)
  have places := value_div each (c.toNat - 48)
  have same : value 0 (c::src) = value (c.toNat - 48) src := by
    change value (10 * 0 + (c.toNat - 48)) src = _
    rw [Nat.mul_zero,Nat.zero_add]
  rw [same] at bounded ⊢
  have few : src.length ≤ 9 := by
    by_contra many
    have large : 10 ^ 10 ≤ 10 ^ src.length := Nat.pow_le_pow_right (Nat.succ_pos 9) (by omega)
    rw [Nat.div_eq_of_lt (bounded.trans_le large)] at places
    omega
  have begin_ : At 0 (src.length + 1) .start := .start (Nat.succ_le_succ few)
  by_cases ten : c.toNat - 48 = 1 ∧ (src.length = 1 ∨ src.length = 5 ∨ src.length = 9)
  · obtain ⟨one,place⟩ := ten
    obtain ⟨next,taken,after⟩ := begin_.ten place
    have text : (unit.getD src.length []).foldlM Reading.step .start = some next := by
      refine Eq.trans ?_ taken
      rcases place with place | place | place <;> rw [place] <;> exact foldlM_sign rfl _
    rw [one] at bounded ⊢
    rw [loop_ten one place,List.foldlM_append,text]
    exact loop_reads each few one_ne_zero bounded false after
  · have leading : c.toNat - 48 ≠ 0 := by omega
    have read := digitText_reads begin_ few (by omega : c.toNat - 48 ≤ 9) false
    rw [if_neg (by omega),Nat.mul_zero,Nat.zero_add] at read
    obtain ⟨next,read,after⟩ := read
    rw [loop_other ten,loop_cons,List.foldlM_append,read]
    exact loop_reads each few leading bounded _ after

theorem unsigned (src : List UInt8) (first bPreZero : Bool) : '负' ∉ loop src first bPreZero [] := by
  have letters : ∀ text ∈ letter, '负' ∉ text := by decide
  have units : ∀ text ∈ unit, '负' ∉ text := by decide
  have found {table : List (List Char)} (each : ∀ text ∈ table, '负' ∉ text) (i : Nat) : '负' ∉ table.getD i [] := by
    rw [List.getD_eq_getElem?_getD]
    cases here : table[i]? with
    | none => exact List.not_mem_nil
    | some text => exact each text (List.mem_of_getElem? here)
  induction src generalizing first bPreZero with
  | nil => exact List.not_mem_nil
  | cons c src ih =>
    rw [loop]
    split_ifs
    all_goals
      rw [loop_append]
      simp only [List.mem_append,List.not_mem_nil,false_or,not_or]
    · exact ⟨found units _,ih _ _⟩
    · exact ⟨found units _,ih _ _⟩
    · exact ih _ _
    · exact ⟨⟨⟨found letters 0,found letters _⟩,found units _⟩,ih _ _⟩
    · exact ⟨⟨found letters _,found units _⟩,ih _ _⟩

/-! ### Numbers -/

/-- Ten thousands that are all zero, below others. -/
def Gap (n : Nat) : Prop := 10 ^ 8 ≤ n ∧ n / 10 ^ 4 % 10 ^ 4 = 0

theorem decimalDigits_reads {n : Nat} (positive : n ≠ 0) (bounded : n < 10 ^ 10) :
    (¬Gap n → ∃ last, (loop (decimalDigits n) true false []).foldlM Reading.step .start = some last ∧ last.value = n) ∧
      (Gap n → (loop (decimalDigits n) true false []).foldlM Reading.step .start = none) := by
  obtain ⟨c,src,starts,zero⟩ := Logic.decimalDigits_head n
  have each := Logic.isDigit_decimalDigits n
  have number : value 0 (decimalDigits n) = n := Logic.denoted_decimalDigits n
  have first := number
  rw [starts] at each number first ⊢
  have leads : c ≠ 48 := by
    intro same
    rw [zero same,same] at number
    exact positive number.symm
  have places := value_div (List.forall_mem_cons.mp each).2 (c.toNat - 48)
  have same : value (c.toNat - 48) src = n := by
    change value (10 * 0 + (c.toNat - 48)) src = _ at first
    rwa [Nat.mul_zero,Nat.zero_add] at first
  have read := loop_reads_first each leads (number.symm ▸ bounded)
  rw [number] at read
  -- five digits more, and no ten thousands
  have long : (5 ≤ src.length ∧ n / 10 ^ 4 % 10 ^ 4 = 0) ↔ Gap n := by
    rw [same] at places
    have digit := (List.forall_mem_cons.mp each).1
    rw [Logic.isDigit,decide_eq_true_iff] at digit
    have other : c.toNat ≠ 48 := fun same => leads (UInt8.toNat_inj.mp same)
    have least : 10 ^ src.length ≤ n := by
      by_contra less
      rw [Nat.div_eq_of_lt (Nat.not_le.mp less)] at places
      omega
    have most : n < 10 * 10 ^ src.length :=
      (Nat.div_lt_iff_lt_mul (Nat.pow_pos (by decide : 0 < 10))).mp (by omega)
    refine and_congr_left fun zeros => ?_
    constructor
    · intro many
      have large : 10 ^ 5 ≤ 10 ^ src.length := Nat.pow_le_pow_right (Nat.succ_pos 9) many
      omega
    · intro large
      by_contra few
      have small : 10 ^ src.length ≤ 10 ^ 4 := Nat.pow_le_pow_right (Nat.succ_pos 9) (by omega)
      omega
  refine ⟨fun full => ?_,fun gap => ?_⟩
  · rw [if_neg fun both => full (long.mp both)] at read
    obtain ⟨last,read,at_⟩ := read
    refine ⟨last,read,?_⟩
    have total : last.total = n / 10 ^ 4 * 10 ^ 4 := at_.total
    have opened : last.opened + last.digit.getD 0 = n % 10 ^ 4 * 1 := at_.opened
    rw [Reading.value,Nat.add_assoc,total,opened]
    omega
  · rwa [if_pos (long.mpr gap)] at read

/-- What is appended. -/
theorem ConverNum_eq (num : Int32) (conver_num : List Char) : ConverNum num conver_num =
    conver_num ++ (if num.toInt < 0 then ['负'] else []) ++ loop (decimalDigits num.toInt.natAbs) true false [] := by
  rw [ConverNum]
  have below : num < 0 ↔ num.toInt < 0 := Int32.lt_iff_toInt_lt
  by_cases negative : num.toInt < 0
  · rw [if_pos (below.mpr negative),if_pos negative,decimal,if_pos negative,loop_append,List.tail_cons]
  · rw [if_neg fun less => negative (below.mp less),if_neg negative,decimal,if_neg negative,loop_append,List.append_nil]

theorem denotes_ConverNum (num : Int32) (some_ : num ≠ 0) :
    (¬Gap num.toInt.natAbs → denotes (ConverNum num []) = some num.toInt) ∧
      (Gap num.toInt.natAbs → denotes (ConverNum num []) = none) := by
  have low := num.le_toInt
  have high := num.toInt_lt
  have other : num.toInt ≠ 0 := fun zero => some_ (Int32.toInt_inj.mp zero)
  obtain ⟨full,gap⟩ := decimalDigits_reads (by omega : num.toInt.natAbs ≠ 0) (by omega)
  have signed : denotes (ConverNum num []) =
      ((loop (decimalDigits num.toInt.natAbs) true false []).foldlM Reading.step .start).map fun reading =>
        if num.toInt < 0 then -(reading.value : Int) else reading.value := by
    rw [ConverNum_eq,List.nil_append,denotes]
    by_cases negative : num.toInt < 0
    · simp only [if_pos negative]
      exact if_pos rfl
    · simp only [if_neg negative]
      refine if_neg fun first => ?_
      exact unsigned _ _ _ (List.mem_of_mem_head? first)
  rw [signed]
  refine ⟨fun not_gap => ?_,fun is_gap => ?_⟩
  · obtain ⟨last,read,value⟩ := full not_gap
    rw [read,Option.map_some,value]
    split <;> congr 1 <;> omega
  · rw [gap is_gap]
    rfl

theorem ConverNum_zero (conver_num : List Char) : ConverNum 0 conver_num = conver_num := rfl

theorem ConverNum_iff (num : Int32) : Right num ↔ num ≠ 0 ∧ ¬Gap num.toInt.natAbs := by
  constructor
  · rintro ⟨text,appended,some_,number,-⟩
    have same := appended []
    rw [List.nil_append] at same
    subst same
    have other : num ≠ 0 := by
      intro zero
      subst zero
      exact some_ rfl
    refine ⟨other,fun gap => ?_⟩
    rw [(denotes_ConverNum num other).2 gap] at number
    cases number
  · rintro ⟨some_,full⟩
    have number := (denotes_ConverNum num some_).1 full
    have alone (other : Int32) (same : ConverNum other [] = ConverNum num []) : other = num := by
      rw [← same] at number
      by_cases zero : other = 0
      · subst zero
        have both : some (0 : Int) = some num.toInt := number
        exact Int32.toInt_inj.mp (Option.some.inj both)
      · obtain ⟨read,gap⟩ := denotes_ConverNum other zero
        by_cases gaps : Gap other.toInt.natAbs
        · rw [gap gaps] at number
          cases number
        · rw [read gaps] at number
          exact Int32.toInt_inj.mp (Option.some.inj number)
    refine ⟨ConverNum num [],fun conver_num => ?_,?_,number,alone⟩
    · rw [ConverNum_eq,ConverNum_eq num [],List.nil_append,List.append_assoc]
    · intro empty
      exact some_ (alone 0 (ConverNum_zero []|>.trans empty.symm)).symm

/-- Nothing is appended for no songs, and two markers for a hundred million of them. -/
theorem songs_unread : ¬Right 0 ∧ ¬Right 100000000 := by
  refine ⟨?_,?_⟩
  · rintro ⟨text,appended,some_,-⟩
    exact some_ (appended []).symm
  · rintro ⟨text,appended,-,number,-⟩
    have same : text = ['一','亿','万'] := (appended []).symm
    rw [same] at number
    cases number

end Migfm.Public.Numerals
