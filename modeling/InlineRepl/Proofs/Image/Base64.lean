import InlineRepl.Image.Base64
import InlineRepl.Proofs.Text.Encoded

/-!
# Base64 is read exactly as it is written

Reading and writing meet in groups. Four numbers below 64 are three bytes; with the unused bits
zero, three numbers are two bytes and two numbers are one. What is written for the bytes of a group
(`encode_four`, `encode_three`, `encode_two`) and which bytes are those of a group (`exists_four`,
`exists_three`, `exists_two`) is all the arithmetic that either direction needs.

Results:
* `value?_symbol`, `eq_symbol`: a symbol and its number.
* `decodeFrom_encode`: what has been written is read back.
* `eq_encode_of_decodeLast`, `eq_encode_of_decodeFrom`: what can be read has been written so.
* `decode_eq_ok_iff`: reading succeeds exactly on what writing produces.
* `mem_encode`: what is written holds symbols and pads alone.
-/

namespace InlineRepl.Base64

open Text (toNat_byte)

variable {a b c d n start : Nat} {byte : UInt8} {group text bytes more : List UInt8}

/-! ## Symbols -/

theorem value?_symbol : n < 64 → value? (symbol n) = some n := by
  revert n
  decide

theorem symbol_ne_pad : n < 64 → symbol n ≠ pad := by
  revert n
  decide

/-- A byte that has a number is the symbol of this number. -/
theorem eq_symbol (h : value? byte = some n) : n < 64 ∧ byte = symbol n := by
  have hall : ∀ k < 256, ∀ n, value? (UInt8.ofNat k) = some n →
      n < 64 ∧ UInt8.ofNat k = symbol n := by
    decide +kernel
  have hbyte := hall byte.toNat byte.toNat_lt n
  rw [UInt8.ofNat_toNat] at hbyte
  exact hbyte h

theorem valueAt_symbol (hn : n < 64) (offset : Nat) : valueAt (symbol n) offset = .ok n := by
  unfold valueAt
  rw [value?_symbol hn]

theorem eq_symbol_of_valueAt {offset : Nat} (h : valueAt byte offset = .ok n) :
    n < 64 ∧ byte = symbol n := by
  unfold valueAt at h
  split at h
  · rename_i hvalue
    obtain rfl := Except.ok.inj h
    exact eq_symbol hvalue
  · exact absurd h nofun

/-! ## Groups -/

/-- **Four numbers are written for the three bytes that they make.** -/
theorem encode_four (ha : a < 64) (hb : b < 64) (hc : c < 64) (hd : d < 64)
    (more : List UInt8) :
    encode ((groupBytes [a, b, c, d]).1 ++ more) =
      symbol a :: symbol b :: symbol c :: symbol d :: encode more := by
  have h1 : (UInt8.ofNat (a * 4 + b / 16)).toNat = a * 4 + b / 16 := toNat_byte (by omega)
  have h2 : (UInt8.ofNat (b % 16 * 16 + c / 4)).toNat = b % 16 * 16 + c / 4 :=
    toNat_byte (by omega)
  have h3 : (UInt8.ofNat (c % 4 * 64 + d)).toNat = c % 4 * 64 + d := toNat_byte (by omega)
  have hn : (((a * 4 + b / 16) * 256 + (b % 16 * 16 + c / 4)) * 256 + (c % 4 * 64 + d)) =
      ((a * 64 + b) * 64 + c) * 64 + d := by
    omega
  show encode (_ :: _ :: _ :: more) = _
  rw [encode, h1, h2, h3, hn]
  congr 2
  · omega
  congr 2
  · omega
  congr 2
  · omega
  · congr 2
    omega

/-- **Three numbers are written for the two bytes that they make**, if they leave no bit. -/
theorem encode_three (ha : a < 64) (hb : b < 64) (hc : c < 64) (hzero : c % 4 = 0) :
    encode (groupBytes [a, b, c]).1 = [symbol a, symbol b, symbol c, pad] := by
  have h1 : (UInt8.ofNat (a * 4 + b / 16)).toNat = a * 4 + b / 16 := toNat_byte (by omega)
  have h2 : (UInt8.ofNat (b % 16 * 16 + c / 4)).toNat = b % 16 * 16 + c / 4 :=
    toNat_byte (by omega)
  have hn : ((a * 4 + b / 16) * 256 + (b % 16 * 16 + c / 4)) * 4 = (a * 64 + b) * 64 + c := by
    omega
  show encode [_, _] = _
  rw [encode, h1, h2, hn]
  congr 2
  · omega
  congr 2
  · omega
  · congr 2
    omega

/-- **Two numbers are written for the byte that they make**, if they leave no bit. -/
theorem encode_two (ha : a < 64) (hb : b < 64) (hzero : b % 16 = 0) :
    encode (groupBytes [a, b]).1 = [symbol a, symbol b, pad, pad] := by
  have h1 : (UInt8.ofNat (a * 4 + b / 16)).toNat = a * 4 + b / 16 := toNat_byte (by omega)
  have hn : (a * 4 + b / 16) * 16 = a * 64 + b := by
    omega
  show encode [_] = _
  rw [encode, h1, hn]
  congr 2
  · omega
  · congr 2
    omega

/-- Three bytes are those of four numbers. -/
theorem exists_four (x y z : UInt8) : ∃ a b c d, (a < 64 ∧ b < 64 ∧ c < 64 ∧ d < 64) ∧
    groupBytes [a, b, c, d] = ([x, y, z], 0) := by
  have hx := x.toNat_lt
  have hy := y.toNat_lt
  have hz := z.toNat_lt
  refine ⟨x.toNat / 4, x.toNat % 4 * 16 + y.toNat / 16, y.toNat % 16 * 4 + z.toNat / 64,
    z.toNat % 64, by omega, ?_⟩
  have h1 : x.toNat / 4 * 4 + (x.toNat % 4 * 16 + y.toNat / 16) / 16 = x.toNat := by omega
  have h2 : (x.toNat % 4 * 16 + y.toNat / 16) % 16 * 16 + (y.toNat % 16 * 4 + z.toNat / 64) / 4 =
      y.toNat := by
    omega
  have h3 : (y.toNat % 16 * 4 + z.toNat / 64) % 4 * 64 + z.toNat % 64 = z.toNat := by omega
  simp only [groupBytes, h1, h2, h3, UInt8.ofNat_toNat]

/-- Two bytes are those of three numbers that leave no bit. -/
theorem exists_three (x y : UInt8) : ∃ a b c, (a < 64 ∧ b < 64 ∧ c < 64) ∧
    groupBytes [a, b, c] = ([x, y], 0) := by
  have hx := x.toNat_lt
  have hy := y.toNat_lt
  refine ⟨x.toNat / 4, x.toNat % 4 * 16 + y.toNat / 16, y.toNat % 16 * 4, by omega, ?_⟩
  have h1 : x.toNat / 4 * 4 + (x.toNat % 4 * 16 + y.toNat / 16) / 16 = x.toNat := by omega
  have h2 : (x.toNat % 4 * 16 + y.toNat / 16) % 16 * 16 + y.toNat % 16 * 4 / 4 = y.toNat := by
    omega
  simp only [groupBytes, h1, h2, UInt8.ofNat_toNat, Nat.mul_mod_left]

/-- A byte is that of two numbers that leave no bit. -/
theorem exists_two (x : UInt8) : ∃ a b, (a < 64 ∧ b < 64) ∧ groupBytes [a, b] = ([x], 0) := by
  have hx := x.toNat_lt
  refine ⟨x.toNat / 4, x.toNat % 4 * 16, by omega, ?_⟩
  have h1 : x.toNat / 4 * 4 + x.toNat % 4 * 16 / 16 = x.toNat := by omega
  simp only [groupBytes, h1, UInt8.ofNat_toNat, Nat.mul_mod_left]

/-! ## The last group -/

/-- Symbols that no pad stands in front of are scanned one by one. -/
theorem scanLast_symbols : ∀ {ns : List Nat}, (∀ n ∈ ns, n < 64) → ∀ (seen : Nat),
    scanLast start seen none (ns.map symbol ++ text) =
      (scanLast start (seen + ns.length) none text).map fun scanned =>
        (ns.map (fun n => (n, symbol n)) ++ scanned.1, scanned.2)
  | [], _, seen => by
    show scanLast start seen none text = (scanLast start seen none text).map id
    cases scanLast start seen none text <;> rfl
  | n :: ns, hns, seen => by
    obtain ⟨hn, hns⟩ := List.forall_mem_cons.mp hns
    rw [List.map_cons, List.cons_append, scanLast, if_neg (symbol_ne_pad hn), valueAt_symbol hn]
    dsimp only
    rw [scanLast_symbols hns (seen + 1), List.length_cons, Nat.add_right_comm seen 1,
      Nat.add_assoc seen]
    cases scanLast start (seen + (ns.length + 1)) none text <;> rfl

/-- Pads are counted, from the third place on. -/
theorem scanLast_pads (pads : Nat) {seen : Nat} (hseen : 2 ≤ seen) (firstPad : Option Nat) :
    scanLast start seen firstPad (List.replicate pads pad) = .ok ([], pads) := by
  induction pads generalizing seen firstPad with
  | zero => rfl
  | succ pads ih =>
    rw [List.replicate_succ]
    unfold scanLast
    rw [if_pos rfl, if_neg (by omega), ih (by omega)]

/-- **Two symbols or more, with pads up to four, are read as the bytes that they make**, if they
leave no bit. -/
theorem decodeLast_written (ns : List Nat) (pads : Nat) (hns : ∀ n ∈ ns, n < 64)
    (htwo : 2 ≤ ns.length) (hfour : (ns.length + pads) % 4 = 0) (hzero : (groupBytes ns).2 = 0) :
    decodeLast start (ns.map symbol ++ List.replicate pads pad) = .ok (groupBytes ns).1 := by
  have hbits : groupBytes ns = ((groupBytes ns).1, 0) := Prod.ext rfl hzero
  unfold decodeLast
  rw [scanLast_symbols hns, Nat.zero_add, scanLast_pads pads htwo]
  show (if (ns.map (fun n => (n, symbol n)) ++ []).length < 2 then _ else _) = _
  rw [List.append_nil, List.length_map, if_neg (by omega), if_neg (by omega), List.map_map]
  rw [show (Prod.fst ∘ fun n : Nat => (n, symbol n)) = id from rfl, List.map_id, hbits]

/-- **What the last group is when it can be read**: symbols and then pads, and no symbol behind a
pad. -/
theorem scanLast_eq_ok : ∀ {bs : List UInt8} {seen : Nat} {firstPad : Option Nat}
    {symbols : List (Nat × UInt8)} {pads : Nat},
    scanLast start seen firstPad bs = .ok (symbols, pads) →
      bs = symbols.map (fun s => symbol s.1) ++ List.replicate pads pad ∧
        (∀ s ∈ symbols, s.1 < 64) ∧ (firstPad.isSome = true → symbols = [])
  | [], _, _, _, _, h => by
    obtain ⟨rfl, rfl⟩ := Prod.mk.inj (Except.ok.inj h)
    exact ⟨rfl, fun _ hs => absurd hs List.not_mem_nil, fun _ => rfl⟩
  | byte :: bs, seen, firstPad, symbols, pads, h => by
    unfold scanLast at h
    split at h
    · rename_i hpad
      split at h
      · exact absurd h nofun
      · split at h
        · rename_i rest count hrest
          obtain ⟨rfl, rfl⟩ := Prod.mk.inj (Except.ok.inj h)
          obtain ⟨hbs, -, hnone⟩ := scanLast_eq_ok hrest
          have hempty : rest = [] := hnone (by cases firstPad <;> rfl)
          subst hempty hpad
          exact ⟨congrArg (pad :: ·) hbs, fun _ hs => absurd hs List.not_mem_nil, fun _ => rfl⟩
        · exact absurd h nofun
    · split at h
      · exact absurd h nofun
      · split at h
        · exact absurd h nofun
        · rename_i n hvalue
          obtain ⟨hn, rfl⟩ := eq_symbol_of_valueAt hvalue
          split at h
          · rename_i rest count hrest
            obtain ⟨rfl, rfl⟩ := Prod.mk.inj (Except.ok.inj h)
            obtain ⟨hbs, hall, -⟩ := scanLast_eq_ok hrest
            refine ⟨congrArg (symbol n :: ·) hbs, fun s hs => ?_, fun hsome => ?_⟩
            · rcases List.mem_cons.mp hs with rfl | hs
              · exact hn
              · exact hall s hs
            · exact absurd hsome (by simp)
          · exact absurd h nofun

/-- **A last group that can be read has been written for its bytes.** -/
theorem eq_encode_of_decodeLast (hlen : group.length ≤ 4)
    (h : decodeLast start group = .ok bytes) : group = encode bytes := by
  unfold decodeLast at h
  split at h
  · exact absurd h nofun
  rename_i symbols pads hscan
  obtain ⟨rfl, hall, -⟩ := scanLast_eq_ok hscan
  rw [List.length_append, List.length_map, List.length_replicate] at hlen
  split at h
  · exact absurd h nofun
  rename_i htwo
  split at h
  · exact absurd h nofun
  rename_i hfour
  -- Two, three or four symbols, and pads up to four.
  have hpads : pads = 4 - symbols.length := by omega
  subst hpads
  match symbols, htwo, hlen, hall with
  | [], htwo, _, _ => exact absurd (by decide) htwo
  | [_], htwo, _, _ => exact absurd (by simp) htwo
  | [(a, s1), (b, s2)], _, _, hall =>
    have ha : a < 64 := hall (a, s1) (by simp)
    have hb : b < 64 := hall (b, s2) (by simp)
    split at h
    · rename_i hbits
      obtain rfl := Except.ok.inj h
      have hbytes := encode_two ha hb (congrArg Prod.snd hbits)
      rw [show (groupBytes [a, b]).1 = _ from congrArg Prod.fst hbits] at hbytes
      exact hbytes.symm
    · exact absurd h nofun
    · rename_i hlast
      exact absurd hlast (by simp)
  | [(a, s1), (b, s2), (c, s3)], _, _, hall =>
    have ha : a < 64 := hall (a, s1) (by simp)
    have hb : b < 64 := hall (b, s2) (by simp)
    have hc : c < 64 := hall (c, s3) (by simp)
    split at h
    · rename_i hbits
      obtain rfl := Except.ok.inj h
      have hbytes := encode_three ha hb hc (congrArg Prod.snd hbits)
      rw [show (groupBytes [a, b, c]).1 = _ from congrArg Prod.fst hbits] at hbytes
      exact hbytes.symm
    · exact absurd h nofun
    · rename_i hlast
      exact absurd hlast (by simp)
  | [(a, s1), (b, s2), (c, s3), (d, s4)], _, _, hall =>
    obtain rfl := Except.ok.inj h
    have hbytes := encode_four (hall (a, s1) (by simp)) (hall (b, s2) (by simp))
      (hall (c, s3) (by simp)) (hall (d, s4) (by simp)) []
    rw [List.append_nil] at hbytes
    exact hbytes.symm
  | _ :: _ :: _ :: _ :: _ :: _, _, hlen, _ =>
    simp only [List.length_cons] at hlen
    omega

/-! ## All groups -/

/-- What is written begins with a symbol, unless nothing is. -/
theorem encode_eq_nil_iff : encode bytes = [] ↔ bytes = [] := by
  fun_cases encode bytes <;> simp

theorem decodeFrom_four (ha : a < 64) (hb : b < 64) (hc : c < 64) (hd : d < 64)
    (hmore : more ≠ []) :
    decodeFrom start (symbol a :: symbol b :: symbol c :: symbol d :: more) =
      (decodeFrom (start + 4) more).map ((groupBytes [a, b, c, d]).1 ++ ·) := by
  cases more with
  | nil => exact absurd rfl hmore
  | cons e rest =>
    rw [decodeFrom, valueAt_symbol ha, valueAt_symbol hb, valueAt_symbol hc, valueAt_symbol hd]
    cases decodeFrom (start + 4) (e :: rest) <;> rfl

/-- **What has been written is read back**, from wherever it begins. -/
theorem decodeFrom_encode : ∀ (bytes : List UInt8) (start : Nat),
    decodeFrom start (encode bytes) = .ok bytes
  | x :: y :: z :: more, start => by
    obtain ⟨a, b, c, d, ⟨ha, hb, hc, hd⟩, hbits⟩ := exists_four x y z
    have hbytes : (groupBytes [a, b, c, d]).1 = [x, y, z] := congrArg Prod.fst hbits
    have hencode := encode_four ha hb hc hd more
    rw [hbytes] at hencode
    show decodeFrom start (encode ([x, y, z] ++ more)) = _
    rw [hencode]
    by_cases hmore : more = []
    · subst hmore
      rw [← hbytes]
      exact decodeLast_written [a, b, c, d] 0 (by simp [ha, hb, hc, hd])
        (by simp) (by simp) rfl
    · rw [decodeFrom_four ha hb hc hd (mt encode_eq_nil_iff.mp hmore),
        decodeFrom_encode more (start + 4), hbytes]
      rfl
  | [x, y], start => by
    obtain ⟨a, b, c, ⟨ha, hb, hc⟩, hbits⟩ := exists_three x y
    have hbytes : (groupBytes [a, b, c]).1 = [x, y] := congrArg Prod.fst hbits
    have hzero : (groupBytes [a, b, c]).2 = 0 := congrArg Prod.snd hbits
    have hencode := encode_three ha hb hc hzero
    rw [hbytes] at hencode
    rw [hencode, ← hbytes]
    exact decodeLast_written [a, b, c] 1 (by simp [ha, hb, hc]) (by simp)
      (by simp) hzero
  | [x], start => by
    obtain ⟨a, b, ⟨ha, hb⟩, hbits⟩ := exists_two x
    have hbytes : (groupBytes [a, b]).1 = [x] := congrArg Prod.fst hbits
    have hzero : (groupBytes [a, b]).2 = 0 := congrArg Prod.snd hbits
    have hencode := encode_two ha hb hzero
    rw [hbytes] at hencode
    rw [hencode, ← hbytes]
    exact decodeLast_written [a, b] 2 (by simp [ha, hb]) (by simp) (by simp)
      hzero
  | [], _ => rfl

/-- **What can be read has been written so.** -/
theorem eq_encode_of_decodeFrom : ∀ {text : List UInt8} {start : Nat} {bytes : List UInt8},
    decodeFrom start text = .ok bytes → text = encode bytes
  | [], _, _, h => by
    obtain rfl := Except.ok.inj h
    rfl
  | [_], _, _, h | [_, _], _, _, h | [_, _, _], _, _, h | [_, _, _, _], _, _, h =>
    eq_encode_of_decodeLast (by simp) h
  | s1 :: s2 :: s3 :: s4 :: s5 :: rest, start, bytes, h => by
    rw [decodeFrom] at h
    rcases h1 : valueAt s1 start with fault | a
    · rw [h1] at h
      exact absurd h nofun
    rcases h2 : valueAt s2 (start + 1) with fault | b
    · rw [h1, h2] at h
      exact absurd h nofun
    rcases h3 : valueAt s3 (start + 2) with fault | c
    · rw [h1, h2, h3] at h
      exact absurd h nofun
    rcases h4 : valueAt s4 (start + 3) with fault | d
    · rw [h1, h2, h3, h4] at h
      exact absurd h nofun
    rcases h5 : decodeFrom (start + 4) (s5 :: rest) with fault | more
    · rw [h1, h2, h3, h4, h5] at h
      exact absurd h nofun
    rw [h1, h2, h3, h4, h5] at h
    obtain rfl := Except.ok.inj h
    obtain ⟨ha, rfl⟩ := eq_symbol_of_valueAt h1
    obtain ⟨hb, rfl⟩ := eq_symbol_of_valueAt h2
    obtain ⟨hc, rfl⟩ := eq_symbol_of_valueAt h3
    obtain ⟨hd, rfl⟩ := eq_symbol_of_valueAt h4
    rw [encode_four ha hb hc hd, ← eq_encode_of_decodeFrom h5]

/-! ## Whole texts -/

theorem length_encode_mod (bytes : List UInt8) : (encode bytes).length % 4 = 0 := by
  fun_induction encode bytes with
  | case1 x y z more n ih =>
    simp only [List.length_cons]
    omega
  | case2 => simp
  | case3 => simp
  | case4 => rfl

/-- **Reading succeeds exactly on what writing produces**, and gives the bytes that it was written
for. -/
theorem decode_eq_ok_iff : decode text = .ok bytes ↔ text = encode bytes := by
  have hempty : decodeFrom 0 [] = .ok [] := rfl
  unfold decode
  constructor
  · intro h
    split at h
    · rename_i hnone
      rw [List.getLast?_eq_none_iff.mp hnone]
      exact eq_encode_of_decodeFrom (hempty.trans h)
    · split at h
      · exact absurd h nofun
      · exact eq_encode_of_decodeFrom h
  · rintro rfl
    split
    · rename_i hnone
      rw [encode_eq_nil_iff.mp (List.getLast?_eq_none_iff.mp hnone)]
    · have hlen := length_encode_mod bytes
      rw [if_neg fun hone => absurd hone.1 (by omega), decodeFrom_encode]

/-- **What is written holds symbols and pads alone.** -/
theorem mem_encode (h : byte ∈ encode bytes) : (∃ n < 64, byte = symbol n) ∨ byte = pad := by
  fun_induction encode bytes with
  | case1 x y z more n ih =>
    have hx := x.toNat_lt
    have hy := y.toNat_lt
    have hz := z.toNat_lt
    simp only [List.mem_cons] at h
    rcases h with rfl | rfl | rfl | rfl | h
    · exact .inl ⟨_, by omega, rfl⟩
    · exact .inl ⟨_, Nat.mod_lt _ (by decide), rfl⟩
    · exact .inl ⟨_, Nat.mod_lt _ (by decide), rfl⟩
    · exact .inl ⟨_, Nat.mod_lt _ (by decide), rfl⟩
    · exact ih h
  | case2 x y n =>
    have hx := x.toNat_lt
    have hy := y.toNat_lt
    simp only [List.mem_cons, List.not_mem_nil, or_false] at h
    rcases h with rfl | rfl | rfl | rfl
    · exact .inl ⟨_, by omega, rfl⟩
    · exact .inl ⟨_, Nat.mod_lt _ (by decide), rfl⟩
    · exact .inl ⟨_, Nat.mod_lt _ (by decide), rfl⟩
    · exact .inr rfl
  | case3 x n =>
    have hx := x.toNat_lt
    simp only [List.mem_cons, List.not_mem_nil, or_false] at h
    rcases h with rfl | rfl | rfl | rfl
    · exact .inl ⟨_, by omega, rfl⟩
    · exact .inl ⟨_, Nat.mod_lt _ (by decide), rfl⟩
    · exact .inr rfl
    · exact .inr rfl
  | case4 => exact absurd h List.not_mem_nil

end InlineRepl.Base64
