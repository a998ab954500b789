import Simulator.GoValues

/-!
# Password hashes

Strings are lists of bytes; the key derivation is a parameter, `idKey`.
-/

namespace Simulator

open List

namespace Auth

def ascii (text : String) : List UInt8 :=
  text.toList.map fun c => c.toNat.toUInt8

section Base64

/-- The alphabet of `base64.StdEncoding`. -/
def alphabet : List UInt8 :=
  ascii "ABCDEFGHIJKLMNOPQRSTUVWXYZabcdefghijklmnopqrstuvwxyz0123456789+/"

def sextets : List UInt8 → List Nat
  | [] => []
  | [a] => [a.toNat / 4, a.toNat % 4 * 16]
  | [a, b] => [a.toNat / 4, a.toNat % 4 * 16 + b.toNat / 16, b.toNat % 16 * 4]
  | a :: b :: c :: rest =>
    [a.toNat / 4, a.toNat % 4 * 16 + b.toNat / 16, b.toNat % 16 * 4 + c.toNat / 64,
      c.toNat % 64] ++ sextets rest

/-- `base64.RawStdEncoding.EncodeToString` -/
def encodeToString (bytes : List UInt8) : List UInt8 :=
  (sextets bytes).map (alphabet.getD · 0)

def joinSextets : List Nat → Option (List UInt8)
  | [] => some []
  | [_] => none
  | [a, b] => some [(a * 4 + b / 16).toUInt8]
  | [a, b, c] => some [(a * 4 + b / 16).toUInt8, (b * 16 + c / 4).toUInt8]
  | a :: b :: c :: d :: rest => do
    let bytes ← joinSextets rest
    return (a * 4 + b / 16).toUInt8 :: (b * 16 + c / 4).toUInt8 :: (c * 64 + d).toUInt8 :: bytes

/-- `base64.RawStdEncoding.DecodeString`, which skips line ends; `none` is an
error. -/
def decodeString (text : List UInt8) : Option (List UInt8) := do
  let sextets ← (text.filter fun c => c != 10 && c != 13).mapM (alphabet.idxOf? ·)
  joinSextets sextets

variable {v : Nat}

theorem letter_facts (small : v < 64) :
    alphabet.idxOf? (alphabet.getD v 0) = some v ∧ alphabet.getD v 0 ≠ 36 ∧
      (alphabet.getD v 0 != 10 && alphabet.getD v 0 != 13) = true := by
  have all : ∀ v : Fin 64, alphabet.idxOf? (alphabet.getD v 0) = some v.val ∧
      alphabet.getD v 0 ≠ 36 ∧ (alphabet.getD v 0 != 10 && alphabet.getD v 0 != 13) = true := by
    decide +kernel
  exact all ⟨v, small⟩

theorem lt_of_mem_sextets {bytes : List UInt8} (mem : v ∈ sextets bytes) :
    v < 64 := by
  induction bytes using sextets.induct with
  | case1 => cases mem
  | case2 a =>
    have := a.toNat_lt
    simp [sextets] at mem
    omega
  | case3 a b =>
    have := a.toNat_lt
    have := b.toNat_lt
    simp [sextets] at mem
    omega
  | case4 a b c rest ih =>
    have := a.toNat_lt
    have := b.toNat_lt
    have := c.toNat_lt
    simp only [sextets, cons_append, nil_append, mem_cons] at mem
    rcases mem with here | here | here | here | later
    · omega
    · omega
    · omega
    · omega
    · exact ih later

theorem joinSextets_sextets (bytes : List UInt8) : joinSextets (sextets bytes) = some bytes := by
  induction bytes using sextets.induct with
  | case1 => rfl
  | case2 a =>
    have := a.toNat_lt
    simp [sextets, joinSextets, ← UInt8.toNat_inj]
    omega
  | case3 a b =>
    have := a.toNat_lt
    have := b.toNat_lt
    simp [sextets, joinSextets, ← UInt8.toNat_inj]
    omega
  | case4 a b c rest ih =>
    have := a.toNat_lt
    have := b.toNat_lt
    have := c.toNat_lt
    simp [sextets, joinSextets, ih, ← UInt8.toNat_inj]
    omega

theorem not_dollar_mem_encodeToString (bytes : List UInt8) : 36 ∉ encodeToString bytes := by
  intro mem
  obtain ⟨v, lt, letter⟩ := mem_map.mp mem
  exact (letter_facts (lt_of_mem_sextets lt)).2.1 letter

theorem decodeString_encodeToString (bytes : List UInt8) :
    decodeString (encodeToString bytes) = some bytes := by
  have kept : (encodeToString bytes).filter (fun c => c != 10 && c != 13) =
      encodeToString bytes := by
    rw [filter_eq_self]
    intro c mem
    obtain ⟨v, lt, rfl⟩ := mem_map.mp mem
    exact (letter_facts (lt_of_mem_sextets lt)).2.2
  have read : (encodeToString bytes).mapM (alphabet.idxOf? ·) = some (sextets bytes) := by
    rw [encodeToString, mapM_map]
    exact (mapM_some_eq_map fun v lt =>
      (letter_facts (lt_of_mem_sextets lt)).1).trans (by simp)
  rw [decodeString, kept, read]
  exact joinSextets_sextets bytes

end Base64

section Parameters

/-- `%d` of an unsigned number -/
def decimal (n : Nat) : List UInt8 :=
  if n = 0 then [48] else (Nat.digits 10 n).reverse.map fun digit => (48 + digit).toUInt8

/-- `strconv.ParseUint(s, 10, 32)`; `none` is an error -/
def parseUint (s : List UInt8) : Option Nat :=
  if s = [] then none
  else if s.all fun c => 48 ≤ c && c ≤ 57 then
    let n := s.foldl (fun n c => n * 10 + (c.toNat - 48)) 0
    if n < 2 ^ 32 then some n else none
  else
    none

/-- `strings.Cut` at one byte; `none` when it is not found -/
def cut (s : List UInt8) (separator : UInt8) : Option (List UInt8 × List UInt8) :=
  if separator ∈ s then
    some (s.takeWhile (· != separator), (s.dropWhile (· != separator)).tail)
  else
    none

structure Params where
  memory : UInt32 := 0
  timeN : UInt32 := 0
  threads : UInt8 := 0

/-- One round of the loop of `parseParams`. -/
def parseParam (params : Params) (kv : List UInt8) : Option Params := do
  let (k, v) ← cut kv 61
  let n ← parseUint v
  if k = ascii "m" then return { params with memory := n.toUInt32 }
  else if k = ascii "t" then return { params with timeN := n.toUInt32 }
  else if k = ascii "p" then return { params with threads := n.toUInt8 }
  else return params

/-- `parseParams`; `none` where the source returns `false` -/
def parseParams (s : List UInt8) : Option Params := do
  let params ← (s.splitOn 44).foldlM parseParam {}
  if 0 < params.memory ∧ 0 < params.timeN ∧ 0 < params.threads then return params else none

variable {n : Nat}

theorem mem_decimal {c : UInt8} (mem : c ∈ decimal n) :
    48 ≤ c.toNat ∧ c.toNat ≤ 57 := by
  unfold decimal at mem
  split at mem
  · rw [mem_singleton.mp mem]
    decide
  · obtain ⟨digit, lt, rfl⟩ := mem_map.mp mem
    have := Nat.digits_lt_base (by decide) (mem_reverse.mp lt)
    simp
    omega

theorem foldr_digits {digits : List Nat} (small : ∀ digit ∈ digits, digit < 10) :
    digits.foldr (fun digit n => n * 10 + ((48 + digit).toUInt8.toNat - 48)) 0 =
      Nat.ofDigits 10 digits := by
  induction digits with
  | nil => rfl
  | cons digit digits ih =>
    have := small digit mem_cons_self
    rw [foldr_cons, ih fun other mem => small other (.tail _ mem), Nat.ofDigits_cons]
    simp
    omega

theorem parseUint_decimal (pos : 0 < n) (small : n < 2 ^ 32) :
    parseUint (decimal n) = some n := by
  have digits : (decimal n).all (fun c => 48 ≤ c && c ≤ 57) = true := by
    rw [all_eq_true]
    intro c mem
    simpa [UInt8.le_iff_toNat_le] using mem_decimal mem
  have v : (decimal n).foldl (fun n c => n * 10 + (c.toNat - 48)) 0 = n := by
    rw [decimal, if_neg (by omega), foldl_map, foldl_reverse,
      foldr_digits fun digit => Nat.digits_lt_base (by decide), Nat.ofDigits_digits]
  have nonempty : decimal n ≠ [] := by
    simp [decimal, Nat.digits_ne_nil_iff_ne_zero, pos.ne']
  rw [parseUint, if_neg nonempty, if_pos digits]
  simp only [v]
  exact if_pos small

theorem parseParam_eq {params : Params} {name : List UInt8} (plain : 61 ∉ name)
    (pos : 0 < n) (small : n < 2 ^ 32) :
    parseParam params (name ++ 61 :: decimal n) =
      if name = ascii "m" then some { params with memory := n.toUInt32 }
      else if name = ascii "t" then some { params with timeN := n.toUInt32 }
      else if name = ascii "p" then some { params with threads := n.toUInt8 }
      else some params := by
  have stops : ∀ c ∈ name, (c != 61) = true := by
    intro c mem
    rw [bne_iff_ne]
    rintro rfl
    exact plain mem
  have hit : cut (name ++ 61 :: decimal n) 61 = some (name, decimal n) := by
    simp [cut, takeWhile_append_of_pos stops, dropWhile_append_of_pos stops]
  simp only [parseParam, hit, parseUint_decimal pos small, Option.bind_eq_bind, Option.bind_some]
  rfl

def printParams (memory timeN : UInt32) (threads : UInt8) : List UInt8 :=
  ascii "m=" ++ decimal memory.toNat ++ ascii ",t=" ++ decimal timeN.toNat ++ ascii ",p=" ++
    decimal threads.toNat

theorem parseParams_printParams {memory timeN : UInt32} {threads : UInt8} (someMemory : 0 < memory)
    (someTime : 0 < timeN) (someThreads : 0 < threads) :
    parseParams (printParams memory timeN threads) = some ⟨memory, timeN, threads⟩ := by
  have noComma (name : List UInt8) (plain : 44 ∉ name) (n : Nat) :
      44 ∉ name ++ 61 :: decimal n := by
    intro mem
    rcases mem_append.mp mem with inName | inRest
    · exact plain inName
    · rcases mem_cons.mp inRest with equals | inNumber
      · cases equals
      · have := mem_decimal inNumber
        simp at this
  have parts : (printParams memory timeN threads).splitOn 44 =
      [ascii "m" ++ 61 :: decimal memory.toNat, ascii "t" ++ 61 :: decimal timeN.toNat,
        ascii "p" ++ 61 :: decimal threads.toNat] := by
    have shape : printParams memory timeN threads =
        (ascii "m" ++ 61 :: decimal memory.toNat) ++ 44 ::
          ((ascii "t" ++ 61 :: decimal timeN.toNat) ++ 44 ::
            (ascii "p" ++ 61 :: decimal threads.toNat)) := by
      simp [printParams, ascii]
    rw [shape, splitOn_append_cons_self_of_not_mem (noComma _ (by decide) _),
      splitOn_append_cons_self_of_not_mem (noComma _ (by decide) _),
      splitOn_eq_singleton (noComma _ (by decide) _)]
  have readMemory : parseParam {} (ascii "m" ++ 61 :: decimal memory.toNat) = some ⟨memory, 0, 0⟩ := by
    rw [parseParam_eq (by decide) (show 0 < memory.toNat from someMemory) memory.toNat_lt,
      if_pos rfl]
    simp
  have readTime : parseParam ⟨memory, 0, 0⟩ (ascii "t" ++ 61 :: decimal timeN.toNat) =
      some ⟨memory, timeN, 0⟩ := by
    rw [parseParam_eq (by decide) (show 0 < timeN.toNat from someTime) timeN.toNat_lt,
      if_neg (by decide), if_pos rfl]
    simp
  have readThreads : parseParam ⟨memory, timeN, 0⟩ (ascii "p" ++ 61 :: decimal threads.toNat) =
      some ⟨memory, timeN, threads⟩ := by
    have := threads.toNat_lt
    rw [parseParam_eq (by decide) (show 0 < threads.toNat from someThreads) (by omega),
      if_neg (by decide), if_neg (by decide), if_pos rfl]
    simp
  simp [parseParams, parts, readMemory, readTime, readThreads, someMemory, someTime, someThreads]

end Parameters

section Verification

variable (idKey : List UInt8 → List UInt8 → UInt32 → UInt32 → UInt8 → UInt32 → List UInt8)

def format (memory timeN : UInt32) (threads : UInt8) (salt hash : List UInt8) : List UInt8 :=
  ascii "$argon2id$v=19$" ++ printParams memory timeN threads ++ ascii "$" ++
    encodeToString salt ++ ascii "$" ++ encodeToString hash

/-- `HashPassword`, given what `rand.Read` returns for the salt -/
def hashPassword (random : Except String (List UInt8)) (password : List UInt8) :
    Except String (List UInt8) := do
  let salt ← random
  let hash := idKey password salt 3 (64 * 1024) 4 32
  return format (64 * 1024) 3 4 salt hash

def verifyPassword (encoded password : List UInt8) : Bool :=
  match encoded.splitOn 36 with
  | [_, algorithm, _, params, salt, hash] =>
    if algorithm ≠ ascii "argon2id" then false
    else match parseParams params, decodeString salt, decodeString hash with
      | some params, some salt, some want =>
        idKey password salt params.timeN params.memory params.threads want.length.toUInt32 = want
      | _, _, _ => false
  | _ => false

theorem splitOn_format (memory timeN : UInt32) (threads : UInt8) (salt hash : List UInt8) :
    (format memory timeN threads salt hash).splitOn 36 =
      [[], ascii "argon2id", ascii "v=19", printParams memory timeN threads, encodeToString salt,
        encodeToString hash] := by
  have shape : format memory timeN threads salt hash =
      [] ++ 36 :: (ascii "argon2id" ++ 36 :: (ascii "v=19" ++ 36 ::
        (printParams memory timeN threads ++ 36 :: (encodeToString salt ++ 36 ::
          encodeToString hash)))) := by
    simp [format, ascii]
  have noDollar : 36 ∉ printParams memory timeN threads := by
    intro mem
    have digit {n : Nat} : 36 ∉ decimal n := by
      intro lt
      have := mem_decimal lt
      simp at this
    simp [printParams, ascii, digit] at mem
  rw [shape, splitOn_append_cons_self_of_not_mem (by decide),
    splitOn_append_cons_self_of_not_mem (by decide),
    splitOn_append_cons_self_of_not_mem (by decide), splitOn_append_cons_self_of_not_mem noDollar,
    splitOn_append_cons_self_of_not_mem (not_dollar_mem_encodeToString salt),
    splitOn_eq_singleton (not_dollar_mem_encodeToString hash)]

theorem verifyPassword_format_iff {idKey} (sized : ∀ password salt timeN memory threads length,
      (idKey password salt timeN memory threads length).length = length.toNat)
    (p q salt : List UInt8) (length : UInt32) {memory timeN : UInt32} {threads : UInt8}
    (someMemory : 0 < memory) (someTime : 0 < timeN) (someThreads : 0 < threads) :
    verifyPassword idKey
        (format memory timeN threads salt (idKey p salt timeN memory threads length)) q = true ↔
      idKey q salt timeN memory threads length = idKey p salt timeN memory threads length := by
  simp [verifyPassword, splitOn_format, parseParams_printParams someMemory someTime someThreads,
    decodeString_encodeToString, sized]

def plainKey (password _ : List UInt8) (_ _ : UInt32) (_ : UInt8) (length : UInt32) : List UInt8 :=
  (List.range length.toNat).map fun i => password.getD i 0

theorem verifyPassword_format_iff_plain :
    verifyPassword plainKey (format 65536 3 4 [1, 2] (plainKey [7] [1, 2] 3 65536 4 2)) [8] = true ↔
      plainKey [8] [1, 2] 3 65536 4 2 = plainKey [7] [1, 2] 3 65536 4 2 :=
  verifyPassword_format_iff (by simp [plainKey]) [7] [8] [1, 2] 2 (by decide) (by decide) (by decide)

end Verification

end Auth

end Simulator
