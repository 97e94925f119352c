import ClaimRush.Agents.OutboundUrl

/-!
# Resolved addresses

A host that is an address, and a host that resolves to it, are judged by the same
ranges, but by different strings of the deny list.
-/

namespace ClaimRush.Agents

open Ip (dotted joined HexGroup Pieces Ipv6Spelling)

/-! ## IPv4 -/

theorem number_toDigits (n : ℕ) : number (Nat.toDigits 10 n) = n := Nat.ofDigitChars_ten_toDigits

theorem isIpv4Literal_dotted (a b c d : Fin 256) : isIpv4Literal (dotted a b c d) = true := by
  have hchars : (dotted a b c d).all (fun c ↦ c.isDigit || c = '.') = true := by
    rw [List.all_eq_true]
    intro x hx
    rcases Ip.mem_dotted hx with hdigit | hdot
    · simp [hdigit]
    · simp [hdot]
  have hpart : ∀ n : Fin 256, ((Nat.toDigits 10 n ≠ [] &&
      !(1 < (Nat.toDigits 10 n).length && (Nat.toDigits 10 n).head? = some '0')) : Bool) =
      true := by
    decide +kernel
  have hparts : ((dotted a b c d).splitOn '.').all (fun p ↦ p ≠ [] &&
      !(1 < p.length && p.head? = some '0') && number p ≤ 255) = true := by
    rw [Ip.splitOn_dotted]
    simp only [List.map_cons, List.map_nil, List.all_cons, List.all_nil, hpart, number_toDigits,
      Bool.true_and, Bool.and_true, Bool.and_eq_true, decide_eq_true_eq]
    omega
  unfold isIpv4Literal
  dsimp only
  rw [hchars, hparts, Ip.splitOn_dotted]
  simp [Ip.dotted_ne_nil]

theorem ipv4ToInt_dotted (a b c d : Fin 256) :
    ipv4ToInt (dotted a b c d) = 2 ^ 24 * a.val + 2 ^ 16 * b.val + 2 ^ 8 * c.val + d.val := by
  unfold ipv4ToInt
  rw [Ip.splitOn_dotted]
  simp only [List.map_cons, List.map_nil, number_toDigits, Nat.shiftLeft_eq]
  omega

/-- A mask keeps the leading bits. -/
theorem and_mask {x k : ℕ} (hx : x < 2 ^ 32) :
    x &&& ((0xffffffff <<< k) % 2 ^ 32) = (x >>> k) <<< k := by
  refine Nat.eq_of_testBit_eq fun i ↦ ?_
  have hones : (0xffffffff : ℕ) = 2 ^ 32 - 1 := rfl
  rw [Nat.testBit_and, Nat.testBit_mod_two_pow, Nat.testBit_shiftLeft, Nat.testBit_shiftLeft,
    Nat.testBit_shiftRight, hones, Nat.testBit_two_pow_sub_one]
  by_cases hki : k ≤ i
  · by_cases hi : i < 32
    · simp [hki, hi, show i - k < 32 by omega, show k + (i - k) = i by omega]
    · have hbit : x.testBit i = false :=
        Nat.testBit_lt_two_pow (hx.trans_le (Nat.pow_le_pow_right (by decide) (by omega)))
      simp [hbit, show k + (i - k) = i by omega]
  · simp [hki]

theorem inIpv4Cidr_dotted (a b c d a' b' c' d' : Fin 256) {maskBits : ℕ} (hpos : 0 < maskBits) :
    inIpv4Cidr (dotted a b c d) (dotted a' b' c' d') maskBits = true ↔
      ipv4ToInt (dotted a b c d) / 2 ^ (32 - maskBits) =
        ipv4ToInt (dotted a' b' c' d') / 2 ^ (32 - maskBits) := by
  have hlt (a b c d : Fin 256) : ipv4ToInt (dotted a b c d) < 2 ^ 32 := by
    rw [ipv4ToInt_dotted]
    omega
  unfold inIpv4Cidr
  simp only [isIpv4Literal_dotted, hpos.ne', if_false, Bool.true_and, decide_eq_true_eq]
  rw [and_mask (hlt a b c d), and_mask (hlt a' b' c' d')]
  simp only [Nat.shiftLeft_eq, Nat.shiftRight_eq_div_pow]
  exact Nat.mul_left_inj (Nat.two_pow_pos _).ne'

theorem isIpv4Literal_of_colon {s : Text} (h : ':' ∈ s) : isIpv4Literal s = false := by
  have hchars : s.all (fun c ↦ c.isDigit || c = '.') = false := by
    rw [List.all_eq_false]
    exact ⟨':', h, by decide⟩
  simp [isIpv4Literal, hchars]

/-! ## Reading an IPv6 form -/

theorem hexNumber_lt {g : Text} (h : ∀ c ∈ g, c.isHexDigit = true) :
    Ip.hexNumber g < 16 ^ g.length := by
  have hdigit : (Ip.hexDigits.all fun c ↦ Ip.hexValue c < 16) = true := by decide
  induction g using List.reverseRecOn with
  | nil => decide
  | append_singleton g c ih =>
      have hhead := ih fun x hx ↦ h x (List.mem_append_left _ hx)
      have hlast := of_decide_eq_true
        (List.all_eq_true.mp hdigit c (Ip.mem_hexDigits (h c (by simp))))
      rw [Ip.hexNumber] at hhead ⊢
      rw [List.foldl_append, List.foldl_cons, List.foldl_nil, List.length_append,
        List.length_singleton, pow_succ]
      omega

theorem parseHextet_group {g : Text} {n : ℕ} (h : HexGroup g n) : parseHextet g = some n := by
  have hlt := hexNumber_lt h.hex
  have hle : 16 ^ g.length ≤ 16 ^ 4 := Nat.pow_le_pow_right (by decide) h.length_le
  have hvalue : ¬ 0xffff < Ip.hexNumber g := by
    norm_num at hle
    omega
  unfold parseHextet
  rw [if_neg (by simp [h.ne_nil, h.length_le]), if_neg (by simpa using h.hex), if_neg hvalue,
    h.value]

theorem mapM_parseHextet {gs : List Text} {ns : List ℕ} (h : List.Forall₂ HexGroup gs ns) :
    gs.mapM parseHextet = some ns := by
  induction h with
  | nil => rfl
  | cons hhead _ ih => simp [parseHextet_group hhead, ih]

theorem parseIpv4Bytes_dotted (a b c d : Fin 256) :
    parseIpv4Bytes (dotted a b c d) = some [a.val, b.val, c.val, d.val] := by
  have hle (n : Fin 256) : ¬ 255 < n.val := by omega
  unfold parseIpv4Bytes
  simp [isIpv4Literal_dotted, Ip.splitOn_dotted, number_toDigits, hle]

theorem ipv4Hextets_bytes (a b c d : Fin 256) :
    ipv4Hextets (some [a.val, b.val, c.val, d.val]) =
      [256 * a.val + b.val, 256 * c.val + d.val] := by
  have hpair (x y : Fin 256) : ((x.val <<< 8) ||| y.val) &&& 0xffff = 256 * x.val + y.val := by
    rw [← Nat.shiftLeft_add_eq_or_of_lt (by omega), Nat.and_two_pow_sub_one_eq_mod _ 16,
      Nat.shiftLeft_eq]
    omega
  simp [ipv4Hextets, hpair]

/-- An IPv4 tail is read as two groups. -/
theorem popIpv4_pieces {gs : List Text} {ns : List ℕ} (h : Pieces gs ns) :
    ∃ gs' ms v4, popIpv4 gs = some (gs', v4) ∧ List.Forall₂ HexGroup gs' ms ∧
      ns = ms ++ ipv4Hextets v4 ∧
      (if v4.isSome then 2 else 0) = (ipv4Hextets v4).length := by
  cases h with
  | hex h =>
      refine ⟨gs, ns, none, ?_, h, by simp [ipv4Hextets], rfl⟩
      unfold popIpv4
      cases hlast : gs.getLast? with
      | none => rfl
      | some g =>
          obtain ⟨n, hn⟩ := Ip.exists_hexGroup h (List.mem_of_getLast? hlast)
          simp [hn.not_mem (c := '.') rfl]
  | dotted h a b c d =>
      refine ⟨_, _, some [a.val, b.val, c.val, d.val], ?_, h, ?_, rfl⟩
      · simp [popIpv4, Ip.dot_mem_dotted, parseIpv4Bytes_dotted]
      · rw [ipv4Hextets_bytes]

/-! ## Splitting at colons -/

theorem splitColons_cons {c : Char} (hc : c ≠ ':') (s : Text) :
    splitColons (c :: s) = (splitColons s).modifyHead (c :: ·) := by
  rw [splitColons]
  rintro s' rfl
  exact absurd rfl hc

theorem splitColons_colon {c : Char} (hc : c ≠ ':') (s : Text) :
    splitColons (':' :: c :: s) = (splitColons (c :: s)).modifyHead (':' :: ·) := by
  rw [splitColons]
  rintro s' - heq
  exact hc (List.cons.inj heq).1

theorem modifyHead_comp (f g : Text → Text) (l : List Text) :
    (l.modifyHead f).modifyHead g = l.modifyHead (g ∘ f) := by
  cases l <;> rfl

theorem modifyHead_nil_append (l : List Text) : l.modifyHead ([] ++ ·) = l := by
  cases l <;> rfl

theorem splitColons_append {g : Text} (hg : ':' ∉ g) (s : Text) :
    splitColons (g ++ s) = (splitColons s).modifyHead (g ++ ·) := by
  induction g with
  | nil => exact (modifyHead_nil_append _).symm
  | cons c g ih =>
      rw [List.mem_cons, not_or] at hg
      rw [List.cons_append, splitColons_cons (Ne.symm hg.1), ih hg.2, modifyHead_comp]
      rfl

/-- Groups joined by single colons are not cut. -/
theorem splitColons_joined {gs : List Text} (hgs : ∀ g ∈ gs, g ≠ [] ∧ ':' ∉ g) (s : Text) :
    splitColons (joined gs ++ s) = (splitColons s).modifyHead (joined gs ++ ·) := by
  induction gs with
  | nil => exact (modifyHead_nil_append _).symm
  | cons g gs ih =>
      have hrest : ∀ g ∈ gs, g ≠ [] ∧ ':' ∉ g := fun g' hg' ↦ hgs g' (List.mem_cons_of_mem _ hg')
      have hg := (hgs g List.mem_cons_self).2
      cases gs with
      | nil => rw [Ip.joined_singleton, splitColons_append hg]
      | cons g' gs =>
          obtain ⟨hne, hg'⟩ := hrest g' List.mem_cons_self
          obtain ⟨c, t, ht⟩ : ∃ c t, joined (g' :: gs) ++ s = c :: t ∧ c ≠ ':' := by
            cases g' with
            | nil => exact absurd rfl hne
            | cons c g' =>
                rw [List.mem_cons, not_or] at hg'
                cases gs with
                | nil => exact ⟨c, g' ++ s, by simp, Ne.symm hg'.1⟩
                | cons g'' gs =>
                    exact ⟨c, _, by rw [Ip.joined_cons_cons, List.append_assoc, List.cons_append],
                      Ne.symm hg'.1⟩
          rw [Ip.joined_cons_cons, List.append_assoc, List.cons_append, splitColons_append hg,
            ht.1, splitColons_colon ht.2, ← ht.1, ih hrest, modifyHead_comp, modifyHead_comp]
          congr 1
          funext u
          simp

theorem colonParts_joined {gs : List Text} (hgs : ∀ g ∈ gs, g ≠ [] ∧ ':' ∉ g) :
    colonParts (joined gs) = gs := by
  unfold colonParts
  by_cases hnil : joined gs = []
  · cases gs with
    | nil => rfl
    | cons g gs =>
        have hg := (hgs g List.mem_cons_self).1
        cases gs with
        | nil => exact absurd (Ip.joined_singleton g ▸ hnil) hg
        | cons g' gs => simp [Ip.joined_cons_cons] at hnil
  · have hne : gs ≠ [] := by
      rintro rfl
      exact hnil rfl
    rw [if_neg hnil, joined, List.splitOn_intercalate ':' (fun g hg ↦ (hgs g hg).2) hne]
    exact List.filter_eq_self.mpr fun g hg ↦ by simpa using (hgs g hg).1

/-! ## Bytes -/

@[simp] theorem bytesOf_nil : bytesOf [] = [] := rfl

theorem bytesOf_cons (n : ℕ) (ns : List ℕ) :
    bytesOf (n :: ns) = n / 256 % 256 :: n % 256 :: bytesOf ns := by
  have hand (m : ℕ) : m &&& 0xff = m % 256 := Nat.and_two_pow_sub_one_eq_mod m 8
  simp [bytesOf, hand, Nat.shiftRight_eq_div_pow]

theorem isIpv4MappedIpv6_bytesOf (ip : Ip.Ipv6) :
    isIpv4MappedIpv6 (bytesOf ip.words) = true ↔ ip.words.take 6 = [0, 0, 0, 0, 0, 0xffff] := by
  obtain ⟨a, b, c, d, e, f, x, y, hwords, hlt⟩ := ip.exists_words
  rw [hwords]
  simp [isIpv4MappedIpv6, bytesOf_cons]
  omega

/-- The embedded IPv4 address, as the code writes it. -/
theorem ipv4FromMapped_bytesOf (ip : Ip.Ipv6)
    (h : ip.words.take 6 = [0, 0, 0, 0, 0, 0xffff]) :
    ∃ a b c d : Fin 256, (Ip.Address.v6 ip).mapped = some (.v4 a b c d) ∧
      ipv4FromMapped (bytesOf ip.words) = dotted a b c d ∧
      (Ip.Address.v6 ip).v4Value = (Ip.Address.v4 a b c d).v4Value := by
  obtain ⟨a, b, c, d, e, f, x, y, hwords, hlt⟩ := ip.exists_words
  have hx : x / 256 < 256 := by omega
  have hy : y / 256 < 256 := by omega
  refine ⟨_, _, _, _, if_pos h, ?_, ?_⟩
  · rw [hwords]
    simp [ipv4FromMapped, bytesOf_cons]
  · unfold Ip.Address.v4Value
    dsimp only
    rw [if_pos h, hwords]
    simp only [Fin.val_ofNat, List.getD_cons_succ, List.getD_cons_zero, Nat.mod_eq_of_lt hx,
      Nat.mod_eq_of_lt hy, Option.some.injEq]
    omega

/-- A range test of an IPv4 address, embedded or not. -/
theorem inIpv4Cidr_value (a b c d a' b' c' d' : Fin 256) (maskBits : ℕ) (hpos : 0 < maskBits) :
    inIpv4Cidr (dotted a b c d) (dotted a' b' c' d') maskBits = true ↔
      ∃ v ∈ (Ip.Address.v4 a b c d).v4Value, v / 2 ^ (32 - maskBits) =
        (2 ^ 24 * a'.val + 2 ^ 16 * b'.val + 2 ^ 8 * c'.val + d'.val) / 2 ^ (32 - maskBits) := by
  rw [inIpv4Cidr_dotted a b c d a' b' c' d' hpos, ipv4ToInt_dotted, ipv4ToInt_dotted]
  simp [Ip.Address.v4Value]

theorem dotted_ne_localhost (a b c d : Fin 256) : dotted a b c d ≠ "localhost".toList := by
  intro heq
  have hliteral := isIpv4Literal_dotted a b c d
  rw [heq] at hliteral
  revert hliteral
  decide

theorem inLoopback_iff (a b c d : Fin 256) :
    inIpv4Cidr (dotted a b c d) "127.0.0.0".toList 8 = true ↔
      ∃ v ∈ (Ip.Address.v4 a b c d).v4Value, v / 2 ^ 24 = 127 := by
  have hbase : "127.0.0.0".toList = dotted (127 : Fin 256) (0 : Fin 256) (0 : Fin 256)
    (0 : Fin 256) := by decide
  rw [hbase, inIpv4Cidr_value a b c d 127 0 0 0 8 (by decide)]
  rfl

theorem inLinkLocal_iff (a b c d : Fin 256) :
    inIpv4Cidr (dotted a b c d) "169.254.0.0".toList 16 = true ↔
      ∃ v ∈ (Ip.Address.v4 a b c d).v4Value, v / 2 ^ 16 = 169 * 2 ^ 8 + 254 := by
  have hbase : "169.254.0.0".toList = dotted (169 : Fin 256) (254 : Fin 256) (0 : Fin 256)
    (0 : Fin 256) := by decide
  rw [hbase, inIpv4Cidr_value a b c d 169 254 0 0 16 (by decide)]
  rfl

theorem isPrivateIpv4_iff (a b c d : Fin 256) :
    isPrivateIpv4 (dotted a b c d) = true ↔ ∃ v ∈ (Ip.Address.v4 a b c d).v4Value,
      v / 2 ^ 24 = 10 ∨ v / 2 ^ 20 = 172 * 2 ^ 4 + 1 ∨ v / 2 ^ 16 = 192 * 2 ^ 8 + 168 ∨
        v / 2 ^ 22 = 100 * 2 ^ 2 + 1 := by
  have hbases : "10.0.0.0".toList = dotted (10 : Fin 256) (0 : Fin 256) (0 : Fin 256)
        (0 : Fin 256) ∧
      "172.16.0.0".toList = dotted (172 : Fin 256) (16 : Fin 256) (0 : Fin 256) (0 : Fin 256) ∧
      "192.168.0.0".toList = dotted (192 : Fin 256) (168 : Fin 256) (0 : Fin 256) (0 : Fin 256) ∧
      "100.64.0.0".toList = dotted (100 : Fin 256) (64 : Fin 256) (0 : Fin 256)
        (0 : Fin 256) := by decide
  obtain ⟨hten, htwelve, hsixteen, hcgnat⟩ := hbases
  unfold isPrivateIpv4
  rw [hten, htwelve, hsixteen, hcgnat]
  simp only [Bool.or_eq_true, inIpv4Cidr_value a b c d 10 0 0 0 8 (by decide),
    inIpv4Cidr_value a b c d 172 16 0 0 12 (by decide),
    inIpv4Cidr_value a b c d 192 168 0 0 16 (by decide),
    inIpv4Cidr_value a b c d 100 64 0 0 10 (by decide), or_assoc, Ip.Address.v4Value,
    Option.mem_def, Option.some.injEq, exists_eq_left']
  rfl

theorem v4Value_none {ip : Ip.Ipv6} (h : ip.words.take 6 ≠ [0, 0, 0, 0, 0, 0xffff]) :
    (Ip.Address.v6 ip).v4Value = none := if_neg h

theorem words_of_mapped {ip : Ip.Ipv6} (h : ip.words.take 6 = [0, 0, 0, 0, 0, 0xffff]) :
    ip.words ≠ [0, 0, 0, 0, 0, 0, 0, 1] ∧ ip.words ≠ List.replicate 8 0 ∧
      ip.words.head? = some 0 := by
  obtain ⟨a, b, c, d, e, f, x, y, hwords, -⟩ := ip.exists_words
  rw [hwords] at h ⊢
  simp only [List.take_succ_cons, List.take_zero, List.cons.injEq, and_true] at h
  obtain ⟨rfl, rfl, rfl, rfl, rfl, rfl⟩ := h
  exact ⟨by simp, by simp [List.replicate], rfl⟩

/-! ## Plain characters -/

theorem trim_eq_self {s : Text} (h : ∀ c ∈ s, isSpace c = false) : trim s = s := by
  have hdrop : s.dropWhile isSpace = s := by
    cases s with
    | nil => rfl
    | cons c s => rw [List.dropWhile_cons_of_neg (by simp [h c List.mem_cons_self])]
  rw [trim, hdrop, List.rdropWhile_eq_self_iff]
  exact fun hne ↦ by simp [h _ (List.getLast_mem hne)]

/-- The characters of an address are plain. -/
theorem textual_plain {c : Char} (h : c.isHexDigit = true ∨ c = ':' ∨ c = '.') :
    isSpace c = false ∧ c ≠ '[' ∧ c ≠ '%' ∧ c.toNat < 128 := by
  have hhex : (Ip.hexDigits.all fun c ↦
      isSpace c = false ∧ c ≠ '[' ∧ c ≠ '%' ∧ c.toNat < 128) = true := by
    decide
  rcases h with hdigit | rfl | rfl
  · exact of_decide_eq_true (List.all_eq_true.mp hhex c (Ip.mem_hexDigits hdigit))
  · decide
  · decide

/-- A lower case address is left as it is. -/
theorem strip_eq_self {A : Ip.Address} {t : Text} (h : A.Spelling t) :
    (t.takeWhile (· ≠ '%')).rdropWhile (· = '.') = t := by
  obtain ⟨hchars, hlast, hne⟩ := h.chars
  have htake : t.takeWhile (· ≠ '%') = t :=
    List.takeWhile_eq_self_iff.mpr fun c hc ↦ by simp [(textual_plain (hchars c hc)).2.2.1]
  rw [htake, List.rdropWhile_eq_self_iff]
  intro hnil hdot
  rw [List.getLast?_eq_some_getLast hnil] at hlast
  exact hlast (by simpa using hdot)

theorem isOk_iff {ε α : Type} {x : Except ε α} : x.isOk = true ↔ ∃ a, x = .ok a := by
  cases x <;> simp [Except.isOk, Except.toBool]

theorem elim_eq_ok {ε α : Type} {o : Option α} {e : ε} {a : α} :
    o.elim (.error e) .ok = (.ok a : Except ε α) ↔ o = some a := by
  cases o <;> simp

/-! ## The parser -/

section

variable [LowerCase]

theorem toLowerCase_textual {s : Text}
    (h : ∀ c ∈ s, c.isHexDigit = true ∨ c = ':' ∨ c = '.') :
    toLowerCase s = s.map Char.toLower := by
  exact LowerCase.ascii s fun c hc ↦ (textual_plain (h c hc)).2.2.2

theorem toLowerCase_dotted (a b c d : Fin 256) : toLowerCase (dotted a b c d) = dotted a b c d := by
  rw [toLowerCase_textual, Ip.dotted_toLower]
  exact (Ip.Address.Spelling.chars (A := .v4 a b c d) rfl).1

theorem toLowerCase_spelling {s : Text} {ws : List ℕ} (h : Ipv6Spelling s ws) :
    toLowerCase s = s.map Char.toLower :=
  toLowerCase_textual fun _ hc ↦ h.mem hc

/-- Every form of an IPv6 address is read as its sixteen bytes. -/
theorem parseIpv6ToBytes_spelling {s : Text} {ws : List ℕ} (h : Ipv6Spelling s ws) :
    parseIpv6ToBytes s = some (bytesOf ws) := by
  have hlower := toLowerCase_spelling h
  have hspelling := h.toLower
  unfold parseIpv6ToBytes
  rw [hlower]
  generalize s.map Char.toLower = t at hspelling
  have hcolon := hspelling.colon_mem
  clear h hlower
  cases hspelling with
  | @full gs _ hpieces hlen =>
      have hgs : ∀ g ∈ gs, g ≠ [] ∧ ':' ∉ g :=
        fun g hg ↦ ⟨hpieces.ne_nil hg, hpieces.colon_not_mem hg⟩
      have hsplit : splitColons (joined gs) = [joined gs] := by
        have hjoined := splitColons_joined hgs []
        rw [List.append_nil] at hjoined
        simpa [splitColons] using hjoined
      obtain ⟨gs', ms, v4, hpop, hgroups, rfl, htail⟩ := popIpv4_pieces hpieces
      have hcount := hgroups.length_eq
      rw [List.length_append] at hlen
      simp [hcolon, hsplit, colonParts_joined hgs, hpop, mapM_parseHextet hgroups, htail, hcount,
        hlen]
  | @compressed hs ts ms ns hhead htail hlen =>
      have hhs : ∀ g ∈ hs, g ≠ [] ∧ ':' ∉ g :=
        fun g hg ↦ ⟨(Pieces.hex hhead).ne_nil hg, (Pieces.hex hhead).colon_not_mem hg⟩
      have hts : ∀ g ∈ ts, g ≠ [] ∧ ':' ∉ g :=
        fun g hg ↦ ⟨htail.ne_nil hg, htail.colon_not_mem hg⟩
      have hsplit : splitColons (joined hs ++ ':' :: ':' :: joined ts) =
          [joined hs, joined ts] := by
        have hjoined := splitColons_joined hts []
        rw [List.append_nil] at hjoined
        rw [splitColons_joined hhs, splitColons, hjoined]
        simp [splitColons]
      obtain ⟨ts', ns', v4, hpop, hgroups, rfl, hpopped⟩ := popIpv4_pieces htail
      have hcount := hgroups.length_eq
      have hcount' := hhead.length_eq
      rw [List.length_append] at hlen ⊢
      have hle : ms.length + (ns'.length + (ipv4Hextets v4).length) ≤ 8 := by omega
      have hsum : ms.length + (8 - (ms.length + (ns'.length + (ipv4Hextets v4).length)) +
          (ns'.length + (ipv4Hextets v4).length)) = 8 := by omega
      simp [hcolon, hsplit, colonParts_joined hhs, colonParts_joined hts, hpop,
        mapM_parseHextet hgroups, mapM_parseHextet hhead, hpopped, hcount, hcount', hle, hsum,
        Nat.add_assoc]

theorem parseIpv6ToBytes_dotted (a b c d : Fin 256) : parseIpv6ToBytes (dotted a b c d) = none := by
  have hcolon : ':' ∉ dotted a b c d := by
    intro hmem
    rcases Ip.mem_dotted hmem with hdigit | hdot
    · cases hdigit
    · cases hdot
  unfold parseIpv6ToBytes
  simp [toLowerCase_dotted, hcolon]

/-! ## Ranges -/

/-- The text that the range tests read. -/
theorem reads_spelling {s : Text} {ws : List ℕ} (h : Ipv6Spelling s ws) :
    isIpv4Literal (toLowerCase s) = false ∧ toLowerCase s ≠ "localhost".toList ∧
      parseIpv6ToBytes (toLowerCase s) = some (bytesOf ws) := by
  rw [toLowerCase_spelling h]
  have hcolon := h.toLower.colon_mem
  refine ⟨isIpv4Literal_of_colon hcolon, ?_, parseIpv6ToBytes_spelling h.toLower⟩
  intro heq
  rw [heq] at hcolon
  revert hcolon
  decide

theorem isLoopback_iff {A : Ip.Address} {s : Text} (h : A.Spelling s) :
    isLoopback s = true ↔ A.Loopback := by
  cases A with
  | v4 a b c d =>
      obtain rfl := h
      simp only [isLoopback, toLowerCase_dotted, dotted_ne_localhost, isIpv4Literal_dotted,
        parseIpv6ToBytes_dotted, decide_false, Bool.false_or, Bool.true_and, Bool.or_false,
        inLoopback_iff, Ip.Address.Loopback]
      exact (or_iff_left (by simp [Ip.Address.words])).symm
  | v6 ip =>
      obtain ⟨hliteral, hlocal, hbytes⟩ := reads_spelling h
      simp only [isLoopback, hliteral, hlocal, hbytes, decide_false, Bool.false_and,
        Bool.false_or, Ip.Address.Loopback]
      by_cases hmapped : ip.words.take 6 = [0, 0, 0, 0, 0, 0xffff]
      · obtain ⟨a, b, c, d, -, hdotted, hvalue⟩ := ipv4FromMapped_bytesOf ip hmapped
        rw [if_pos ((isIpv4MappedIpv6_bytesOf ip).mpr hmapped), hdotted, inLoopback_iff, hvalue]
        exact (or_iff_left (words_of_mapped hmapped).1).symm
      · rw [if_neg (mt (isIpv4MappedIpv6_bytesOf ip).mp hmapped), v4Value_none hmapped]
        obtain ⟨a, b, c, d, e, f, x, y, hwords, hlt⟩ := ip.exists_words
        simp [hwords, bytesOf_cons, Ip.Address.words]
        omega

theorem isLinkLocal_iff {A : Ip.Address} {s : Text} (h : A.Spelling s) :
    isLinkLocal s = true ↔ A.LinkLocal := by
  cases A with
  | v4 a b c d =>
      obtain rfl := h
      simp only [isLinkLocal, toLowerCase_dotted, isIpv4Literal_dotted, parseIpv6ToBytes_dotted,
        Bool.true_and, Bool.or_false, inLinkLocal_iff, Ip.Address.LinkLocal]
      exact (or_iff_left (by simp [Ip.Address.words])).symm
  | v6 ip =>
      obtain ⟨hliteral, hlocal, hbytes⟩ := reads_spelling h
      simp only [isLinkLocal, hliteral, hbytes, Bool.false_and, Bool.false_or,
        Ip.Address.LinkLocal]
      by_cases hmapped : ip.words.take 6 = [0, 0, 0, 0, 0, 0xffff]
      · obtain ⟨a, b, c, d, -, hdotted, hvalue⟩ := ipv4FromMapped_bytesOf ip hmapped
        rw [if_pos ((isIpv4MappedIpv6_bytesOf ip).mpr hmapped), hdotted, inLinkLocal_iff, hvalue]
        refine (or_iff_left ?_).symm
        simp [Ip.Address.words, (words_of_mapped hmapped).2.2]
      · have hbits : ∀ n < 256, n &&& 0xc0 = 0x80 ↔ n / 64 = 2 := by decide +kernel
        rw [if_neg (mt (isIpv4MappedIpv6_bytesOf ip).mp hmapped), v4Value_none hmapped]
        obtain ⟨a, b, c, d, e, f, x, y, hwords, hlt⟩ := ip.exists_words
        simp [hwords, bytesOf_cons, Ip.Address.words, hbits _ (Nat.mod_lt a (by decide : 0 < 256))]
        omega

theorem isPrivateIp_iff {A : Ip.Address} {s : Text} (h : A.Spelling s) :
    isPrivateIp s = true ↔ A.Private := by
  cases A with
  | v4 a b c d =>
      obtain rfl := h
      simp only [isPrivateIp, toLowerCase_dotted, isIpv4Literal_dotted, if_true,
        isPrivateIpv4_iff, Ip.Address.Private]
      exact (or_iff_left (by simp [Ip.Address.words])).symm
  | v6 ip =>
      obtain ⟨hliteral, hlocal, hbytes⟩ := reads_spelling h
      simp only [isPrivateIp, hliteral, hbytes, Bool.false_eq_true, if_false,
        Ip.Address.Private]
      by_cases hmapped : ip.words.take 6 = [0, 0, 0, 0, 0, 0xffff]
      · obtain ⟨a, b, c, d, -, hdotted, hvalue⟩ := ipv4FromMapped_bytesOf ip hmapped
        rw [if_pos ((isIpv4MappedIpv6_bytesOf ip).mpr hmapped), hdotted, isPrivateIpv4_iff, hvalue]
        refine (or_iff_left ?_).symm
        obtain ⟨-, hzero, hhead⟩ := words_of_mapped hmapped
        rw [Ip.Address.words, hhead]
        simpa using hzero
      · have hbits : ∀ n < 256, n &&& 0xfe = 0xfc ↔ n / 2 = 126 := by decide +kernel
        rw [if_neg (mt (isIpv4MappedIpv6_bytesOf ip).mp hmapped), v4Value_none hmapped]
        obtain ⟨a, b, c, d, e, f, x, y, hwords, hlt⟩ := ip.exists_words
        simp [hwords, bytesOf_cons, Ip.Address.words, List.replicate,
          hbits _ (Nat.mod_lt (a / 256) (by decide : 0 < 256))]
        omega

/-! ## Hostnames -/

theorem normalizeHostname_spelling {A : Ip.Address} {s : Text} (h : A.Spelling s) :
    normalizeHostname s = s.map Char.toLower := by
  have hchars := h.chars.1
  have hhead : (s.map Char.toLower).head? ≠ some '[' := fun hhead ↦
    (textual_plain (h.toLower.chars.1 _ (List.mem_of_head? hhead))).2.1 rfl
  unfold normalizeHostname
  rw [trim_eq_self fun c hc ↦ (textual_plain (hchars c hc)).1, toLowerCase_textual hchars]
  dsimp only
  rw [if_neg fun hbrackets ↦ hhead hbrackets.1, strip_eq_self h.toLower]

theorem normalizeHostname_urlHost (A : Ip.Address) : normalizeHostname A.urlHost = A.canonical := by
  cases A with
  | v4 a b c d =>
      have hspelling : (Ip.Address.v4 a b c d).Spelling (dotted a b c d) := rfl
      exact (normalizeHostname_spelling hspelling).trans (Ip.dotted_toLower a b c d)
  | v6 ip =>
      have hspelling := (Ip.Address.v6 ip).canonical_spelling
      have hchars := hspelling.chars.1
      have hplain : ∀ c ∈ '[' :: ip.serialize ++ [']'], isSpace c = false ∧ c.toNat < 128 := by
        intro c hc
        simp only [List.cons_append, List.mem_cons, List.mem_append, List.not_mem_nil,
          or_false] at hc
        rcases hc with rfl | hc | rfl
        · decide
        · exact ⟨(textual_plain (hchars c hc)).1, (textual_plain (hchars c hc)).2.2.2⟩
        · decide
      have hlower : toLowerCase ('[' :: ip.serialize ++ [']']) = '[' :: ip.serialize ++ [']'] := by
        rw [LowerCase.ascii _ fun c hc ↦ (hplain c hc).2, List.map_append, List.map_cons,
          ip.serialize_toLower]
        rfl
      unfold normalizeHostname
      rw [Ip.Address.urlHost, trim_eq_self fun c hc ↦ (hplain c hc).1, hlower]
      dsimp only
      rw [if_pos ⟨rfl, List.getLast?_concat⟩]
      simpa [Ip.Address.canonical] using strip_eq_self hspelling

/-! ## The deny list -/

theorem mem_uniqNormalizedHosts {l : List Text} {h : Text} :
    h ∈ uniqNormalizedHosts (some l) ↔ h ≠ [] ∧ ∃ v ∈ l, normalizeHostname v = h := by
  have hfold (out : List Text) : h ∈ l.foldl (fun out v ↦
      let s := normalizeHostname v
      if s = [] ∨ s ∈ out then out else out ++ [s]) out ↔
        h ∈ out ∨ h ≠ [] ∧ ∃ v ∈ l, normalizeHostname v = h := by
    induction l generalizing out with
    | nil => simp
    | cons v l ih =>
        rw [List.foldl_cons, ih]
        dsimp only
        by_cases hskip : normalizeHostname v = [] ∨ normalizeHostname v ∈ out
        · rw [if_pos hskip]
          grind
        · rw [if_neg hskip]
          grind
  simpa [uniqNormalizedHosts] using hfold []

variable (policy : Option OutboundUrlPolicy)

/-- The normalized deny list of a policy. -/
def deniedHosts : List Text :=
  uniqNormalizedHosts (some (DEFAULT_OUTBOUND_URL_POLICY.deniedHosts ++
    ((policy.bind (·.deniedHosts)).getD none).getD []))

/-- The ranges that a policy keeps out. -/
def RangeRejects (A : Ip.Address) : Prop :=
  spread DEFAULT_OUTBOUND_URL_POLICY.allowLoopback (policy.getD {}).allowLoopback ≠ some true ∧
      A.Loopback ∨
    spread DEFAULT_OUTBOUND_URL_POLICY.allowLinkLocal (policy.getD {}).allowLinkLocal ≠ some true ∧
      A.LinkLocal ∨
    spread DEFAULT_OUTBOUND_URL_POLICY.allowPrivateIps (policy.getD {}).allowPrivateIps ≠
      some true ∧ A.Private

/-- Both checks compile the same list. -/
theorem mem_deniedHosts {h : Text} :
    h ∈ uniqNormalizedHosts (some (DEFAULT_OUTBOUND_URL_POLICY.deniedHosts ++
      (spread DEFAULT_OUTBOUND_URL_POLICY.deniedHosts (policy.getD {}).deniedHosts).getD [])) ↔
      h ∈ deniedHosts policy := by
  unfold deniedHosts
  rw [mem_uniqNormalizedHosts, mem_uniqNormalizedHosts]
  rcases policy with _ | ⟨_, _, denied, _⟩
  · simp [spread]
  · rcases denied with _ | _ | denied <;> simp [spread]

variable {policy}

theorem mappedV4_canonical (A : Ip.Address) :
    mappedV4 A.canonical = A.mapped.map Ip.Address.canonical := by
  cases A with
  | v4 a b c d => simp [mappedV4, Ip.Address.canonical, parseIpv6ToBytes_dotted, Ip.Address.mapped]
  | v6 ip =>
      unfold mappedV4
      rw [parseIpv6ToBytes_spelling (Ip.Address.canonical_spelling (.v6 ip)), Option.bind_some]
      by_cases hmapped : ip.words.take 6 = [0, 0, 0, 0, 0, 0xffff]
      · obtain ⟨a, b, c, d, hsome, hdotted, -⟩ := ipv4FromMapped_bytesOf ip hmapped
        rw [if_pos ((isIpv4MappedIpv6_bytesOf ip).mpr hmapped), hdotted, hsome]
        rfl
      · rw [if_neg (mt (isIpv4MappedIpv6_bytesOf ip).mp hmapped), Ip.Address.mapped]
        simp [hmapped]

/-! ## The two judgements -/

/-- The URL `raw` names a host that has to be resolved and passes the checks, no
allowlist is set, and `raw'` is the same URL at the address `A`. -/
structure Compared (env : Env) (raw raw' ctx : Text) (policy : Option OutboundUrlPolicy)
    (A : Ip.Address) : Prop where
  no_allowlist : uniqNormalizedHosts
    (spread DEFAULT_OUTBOUND_URL_POLICY.allowedHosts (policy.getD {}).allowedHosts) = []
  resolves : policy.bind (·.resolveDns) ≠ some (some false)
  text : trim raw' ≠ [] ∧ '\r' ∉ raw' ∧ '\n' ∉ raw'
  named : ∃ u, parseAndValidateOutboundUrl env raw ctx policy = .ok u ∧
    normalizeHostname u.hostname ≠ "localhost".toList ∧
    isIpv4Literal (normalizeHostname u.hostname) = false ∧
    parseIpv6ToBytes (normalizeHostname u.hostname) = none ∧
    env.newUrl raw' = some { u with hostname := A.urlHost }

/-- The lookup of any name answers the text `s`. -/
def Env.answering (env : Env) (s : Text) : Env := { env with lookup := fun _ ↦ .ok [s] }

variable {env : Env} {raw raw' ctx : Text} {A : Ip.Address}

theorem checkResolved_eq_ok {host s : Text} (hs : A.Spelling s) :
    checkResolved env ctx policy host s = .ok () ↔
      toLowerCase s ∉ deniedHosts policy ∧ ¬ RangeRejects policy A := by
  have hlower : normalizeHostname s = toLowerCase s := by
    rw [normalizeHostname_spelling hs, toLowerCase_textual hs.chars.1]
  have hspelling : A.Spelling (toLowerCase s) := by
    rw [toLowerCase_textual hs.chars.1]
    exact hs.toLower
  unfold checkResolved
  dsimp only
  rw [hlower]
  simp only [hspelling.chars.2.2, if_false, bind_eq_ok_iff, revertIf_eq_ok,
    isLoopback_iff hspelling, isLinkLocal_iff hspelling, isPrivateIp_iff hspelling, RangeRejects]
  constructor
  · rintro ⟨-, hdenied, -, hloopback, -, hlink, hprivate⟩
    exact ⟨hdenied, by simp [hloopback, hlink, hprivate]⟩
  · rintro ⟨hdenied, hranges⟩
    rw [not_or, not_or] at hranges
    exact ⟨(), hdenied, (), hranges.1, (), hranges.2.1, hranges.2.2⟩

theorem withDns_isOk (h : Compared env raw raw' ctx policy A) {s : Text} (hs : A.Spelling s) :
    (parseAndValidateOutboundUrlWithDns (env.answering s) raw ctx policy).isOk = true ↔
      toLowerCase s ∉ deniedHosts policy ∧ ¬ RangeRejects policy A := by
  obtain ⟨u, hok, hlocal, hliteral, hparse, -⟩ := h.named
  have hsame : parseAndValidateOutboundUrl (env.answering s) raw ctx policy = .ok u := hok
  have hlookup : dnsLookupAll (env.answering s) (normalizeHostname u.hostname) = .ok [s] := by
    simp [dnsLookupAll, Env.answering, Except.map, hs.chars.2.2]
  have hcheck : checkResolved (env.answering s) ctx policy (normalizeHostname u.hostname) s =
      .ok () ↔ toLowerCase s ∉ deniedHosts policy ∧ ¬ RangeRejects policy A :=
    checkResolved_eq_ok hs
  have hskip : ¬ (¬ policy.bind (·.resolveDns) ≠ some (some false) ∨
      normalizeHostname u.hostname = "localhost".toList ∨
        isIpv4Literal (normalizeHostname u.hostname) = true ∨
          (parseIpv6ToBytes (normalizeHostname u.hostname)).isSome = true) := by
    rw [hliteral, hparse, not_or, not_not]
    exact ⟨h.resolves, by simpa using hlocal⟩
  rw [← hcheck, isOk_iff]
  unfold parseAndValidateOutboundUrlWithDns
  simp only [hsame, bind_eq_ok_iff, Except.ok.injEq, exists_eq_left', hskip, if_false, hlookup,
    Except.mapError, revertIf_eq_ok, List.forM]
  constructor
  · rintro ⟨-, -, -, -, ⟨⟨⟩, hchecked, -⟩, -⟩
    exact hchecked
  · intro hchecked
    exact ⟨u, (), by simp, (), ⟨(), hchecked, rfl⟩, rfl⟩

/-- The checks of a host with no allowlist. -/
theorem parseAndValidateOutboundUrl_eq_ok {u : Url} (hallow : uniqNormalizedHosts
      (spread DEFAULT_OUTBOUND_URL_POLICY.allowedHosts (policy.getD {}).allowedHosts) = []) :
    parseAndValidateOutboundUrl env raw ctx policy = .ok u ↔
      (trim raw ≠ [] ∧ '\r' ∉ raw ∧ '\n' ∉ raw) ∧ env.newUrl raw = some u ∧
      ((∃ protocols, spread DEFAULT_OUTBOUND_URL_POLICY.allowedProtocols
          (policy.getD {}).allowedProtocols = some protocols ∧ u.protocol ∈ protocols) ∧
        ¬ (spread DEFAULT_OUTBOUND_URL_POLICY.allowCredentials
          (policy.getD {}).allowCredentials ≠ some true ∧ (u.username ≠ [] ∨ u.password ≠ []))) ∧
      normalizeHostname u.hostname ≠ [] ∧
      ¬ (normalizeHostname u.hostname ∈ deniedHosts policy ∨
        ∃ v4 ∈ mappedV4 (normalizeHostname u.hostname), v4 ∈ deniedHosts policy) ∧
      ¬ (spread DEFAULT_OUTBOUND_URL_POLICY.allowLoopback (policy.getD {}).allowLoopback ≠
          some true ∧ isLoopback (normalizeHostname u.hostname) = true) ∧
      ¬ (spread DEFAULT_OUTBOUND_URL_POLICY.allowLinkLocal (policy.getD {}).allowLinkLocal ≠
          some true ∧ isLinkLocal (normalizeHostname u.hostname) = true) ∧
      ¬ (spread DEFAULT_OUTBOUND_URL_POLICY.allowPrivateIps (policy.getD {}).allowPrivateIps ≠
          some true ∧ isPrivateIp (normalizeHostname u.hostname) = true) := by
  unfold parseAndValidateOutboundUrl
  simp only [bind_eq_ok_iff, revertIf_eq_ok, elim_eq_ok, mem_deniedHosts, hallow, true_or,
    not_true_eq_false, not_false_eq_true, not_or]
  constructor
  · rintro ⟨-, htrim, -, hline, v, hv, protocols, hprotocols, -, hmem, -, hcred, -, hhost, -, -, -,
      hdeny, -, hloop, -, hlink, -, hpriv, heq⟩
    obtain rfl := Except.ok.inj heq
    exact ⟨⟨htrim, hline⟩, hv, ⟨⟨protocols, hprotocols, not_not.mp hmem⟩, hcred⟩, hhost, hdeny,
      hloop, hlink, hpriv⟩
  · rintro ⟨⟨htrim, hline⟩, hv, ⟨⟨protocols, hprotocols, hmem⟩, hcred⟩, hhost, hdeny, hloop, hlink,
      hpriv⟩
    exact ⟨(), htrim, (), hline, u, hv, protocols, hprotocols, (), not_not.mpr hmem, (), hcred, (),
      hhost, (), trivial, (), hdeny, (), hloop, (), hlink, (), hpriv, rfl⟩

theorem literal_isOk (h : Compared env raw raw' ctx policy A) :
    (parseAndValidateOutboundUrl env raw' ctx policy).isOk = true ↔
      ¬ (A.canonical ∈ deniedHosts policy ∨ ∃ v4 ∈ A.mapped, v4.canonical ∈ deniedHosts policy) ∧
        ¬ RangeRejects policy A := by
  obtain ⟨u, hok, -, -, -, hurl⟩ := h.named
  have hspelling := A.canonical_spelling
  have hmapped : (∃ v4 ∈ mappedV4 A.canonical, v4 ∈ deniedHosts policy) ↔
      ∃ v4 ∈ A.mapped, v4.canonical ∈ deniedHosts policy := by
    rw [mappedV4_canonical]
    simp
  have hchecks := ((parseAndValidateOutboundUrl_eq_ok h.no_allowlist).mp hok).2.2.1
  simp only [isOk_iff, parseAndValidateOutboundUrl_eq_ok h.no_allowlist, hurl, Option.some.injEq]
  constructor
  · rintro ⟨v, -, rfl, -, -, hdeny, hloop, hlink, hpriv⟩
    rw [normalizeHostname_urlHost, hmapped] at hdeny
    rw [normalizeHostname_urlHost, isLoopback_iff hspelling] at hloop
    rw [normalizeHostname_urlHost, isLinkLocal_iff hspelling] at hlink
    rw [normalizeHostname_urlHost, isPrivateIp_iff hspelling] at hpriv
    exact ⟨hdeny, by simp [RangeRejects, hloop, hlink, hpriv]⟩
  · rintro ⟨hdeny, hranges⟩
    rw [RangeRejects, not_or, not_or] at hranges
    refine ⟨_, h.text, rfl, hchecks, ?_⟩
    rw [normalizeHostname_urlHost, hmapped, isLoopback_iff hspelling, isLinkLocal_iff hspelling,
      isPrivateIp_iff hspelling]
    exact ⟨hspelling.chars.2.2, hdeny, hranges⟩

/-- A spelling is judged like its address if and only if the ranges reject the address
or the deny list holds the spelling exactly when it holds the canonical form or the
embedded IPv4 address; two spellings are judged alike if and only if the ranges
reject the address or the deny list holds both or neither. -/
theorem judged_like_literal_iff (h : Compared env raw raw' ctx policy A) {s s' : Text}
    (hs : A.Spelling s) (hs' : A.Spelling s') :
    (((parseAndValidateOutboundUrlWithDns (env.answering s) raw ctx policy).isOk = false ↔
        (parseAndValidateOutboundUrl env raw' ctx policy).isOk = false) ↔
      RangeRejects policy A ∨ (toLowerCase s ∈ deniedHosts policy ↔
        A.canonical ∈ deniedHosts policy ∨
          ∃ v4 ∈ A.mapped, v4.canonical ∈ deniedHosts policy)) ∧
    (((parseAndValidateOutboundUrlWithDns (env.answering s) raw ctx policy).isOk =
        (parseAndValidateOutboundUrlWithDns (env.answering s') raw ctx policy).isOk) ↔
      RangeRejects policy A ∨
        (toLowerCase s ∈ deniedHosts policy ↔ toLowerCase s' ∈ deniedHosts policy)) := by
  have hdns := withDns_isOk h hs
  have hdns' := withDns_isOk h hs'
  have hliteral := literal_isOk h
  constructor
  · rw [← Bool.not_eq_true, ← Bool.not_eq_true, hdns, hliteral]
    by_cases hranges : RangeRejects policy A
    · simp [hranges]
    · simp only [hranges, not_false_eq_true, and_true, false_or, not_not]
  · rw [Bool.eq_iff_iff, hdns, hdns']
    by_cases hranges : RangeRejects policy A
    · simp [hranges]
    · simp only [hranges, not_false_eq_true, and_true, false_or, not_iff_not]

end

/-! ## The metadata addresses -/

/-- Lower case of ASCII only. -/
@[reducible] def asciiCase : LowerCase where
  toLowerCase := List.map Char.toLower
  ascii _ _ := rfl

/-- `::ffff:100.100.100.200`. -/
def mappedMetadata : Ip.Ipv6 where
  words := [0, 0, 0, 0, 0, 0xffff, 0x6464, 0x64c8]
  length_eq := rfl
  lt := by decide

/-- `fd00:ec2::254`. -/
def localMetadata : Ip.Ipv6 where
  words := [0xfd00, 0xec2, 0, 0, 0, 0, 0, 0x254]
  length_eq := rfl
  lt := by decide

/-- A parser of two URLs, one named and one at the address `ip`. -/
def metadataEnv (ip : Ip.Ipv6) : Env where
  newUrl raw := some
    { protocol := "https:".toList, username := [], password := []
      hostname := if raw = "https://rpc.example/".toList then "rpc.example".toList
        else (Ip.Address.v6 ip).urlHost }
  lookup _ := .ok []
  safeErrorString := id

theorem mappedMetadata_spellings :
    (Ip.Address.v6 mappedMetadata).Spelling "::ffff:100.100.100.200".toList ∧
      (Ip.Address.v6 mappedMetadata).Spelling "::ffff:6464:64C8".toList := by
  have hgroup : HexGroup "ffff".toList 0xffff :=
    ⟨by decide, by decide, List.all_eq_true.mp (by decide), by decide⟩
  have hhigh : HexGroup "6464".toList 0x6464 :=
    ⟨by decide, by decide, List.all_eq_true.mp (by decide), by decide⟩
  have hlow : HexGroup "64C8".toList 0x64c8 :=
    ⟨by decide, by decide, List.all_eq_true.mp (by decide), by decide⟩
  have hdotted := Ipv6Spelling.compressed .nil
    (.dotted (.cons hgroup .nil) 100 100 100 200) (by decide)
  have hhex := Ipv6Spelling.compressed .nil
    (.hex (.cons hgroup (.cons hhigh (.cons hlow .nil)))) (by decide)
  exact ⟨hdotted, hhex⟩

theorem localMetadata_spellings :
    (Ip.Address.v6 localMetadata).Spelling "fd00:ec2::254".toList ∧
      (Ip.Address.v6 localMetadata).Spelling "fd00:0ec2::254".toList := by
  have hfirst : HexGroup "fd00".toList 0xfd00 :=
    ⟨by decide, by decide, List.all_eq_true.mp (by decide), by decide⟩
  have hsecond : HexGroup "ec2".toList 0xec2 :=
    ⟨by decide, by decide, List.all_eq_true.mp (by decide), by decide⟩
  have hpadded : HexGroup "0ec2".toList 0xec2 :=
    ⟨by decide, by decide, List.all_eq_true.mp (by decide), by decide⟩
  have hlast : HexGroup "254".toList 0x254 :=
    ⟨by decide, by decide, List.all_eq_true.mp (by decide), by decide⟩
  have hshort := Ipv6Spelling.compressed (.cons hfirst (.cons hsecond .nil))
    (.hex (.cons hlast .nil)) (by decide)
  have hlong := Ipv6Spelling.compressed (.cons hfirst (.cons hpadded .nil))
    (.hex (.cons hlast .nil)) (by decide)
  exact ⟨hshort, hlong⟩

theorem mappedMetadata_compared : @Compared asciiCase (metadataEnv mappedMetadata)
    "https://rpc.example/".toList "https://[::ffff:6464:64c8]/".toList [] none
      (.v6 mappedMetadata) :=
  let _ := asciiCase
  { no_allowlist := by decide
    resolves := by simp
    text := by decide
    named := ⟨⟨"https:".toList, [], [], "rpc.example".toList⟩, by decide,
      by decide, by decide, by decide, rfl⟩ }

theorem localMetadata_compared : @Compared asciiCase (metadataEnv localMetadata)
    "https://rpc.example/".toList "https://[fd00:ec2::254]/".toList [] none
      (.v6 localMetadata) :=
  let _ := asciiCase
  { no_allowlist := by decide
    resolves := by simp
    text := by decide
    named := ⟨⟨"https:".toList, [], [], "rpc.example".toList⟩, by decide,
      by decide, by decide, by decide, rfl⟩ }

/-- A host that resolves to a metadata address is accepted where the address itself is
rejected, and one that resolves to its padded form where the short form is rejected. -/
theorem metadata_judged_apart :
    ¬ (∀ (_ : LowerCase) (env : Env) (raw raw' ctx : Text) (policy : Option OutboundUrlPolicy)
      (A : Ip.Address) (s : Text), Compared env raw raw' ctx policy A → A.Spelling s →
      ((parseAndValidateOutboundUrlWithDns (env.answering s) raw ctx policy).isOk = false ↔
        (parseAndValidateOutboundUrl env raw' ctx policy).isOk = false)) ∧
    ¬ (∀ (_ : LowerCase) (env : Env) (raw raw' ctx : Text) (policy : Option OutboundUrlPolicy)
      (A : Ip.Address) (s s' : Text), Compared env raw raw' ctx policy A → A.Spelling s →
      A.Spelling s' →
        (parseAndValidateOutboundUrlWithDns (env.answering s) raw ctx policy).isOk =
          (parseAndValidateOutboundUrlWithDns (env.answering s') raw ctx policy).isOk) := by
  constructor
  · intro h
    have hjudged := h asciiCase _ _ _ _ _ _ _ mappedMetadata_compared mappedMetadata_spellings.1
    revert hjudged
    decide
  · intro h
    have hjudged := h asciiCase _ _ _ _ _ _ _ _ localMetadata_compared
      localMetadata_spellings.1 localMetadata_spellings.2
    revert hjudged
    decide

/-- The deny list holds the embedded IPv4 address and no form of the IPv6 address. -/
theorem judged_like_literal_metadata :
    let _ := asciiCase
    ¬ (RangeRejects none (.v6 mappedMetadata) ∨
        (toLowerCase "::ffff:100.100.100.200".toList ∈ deniedHosts none ↔
          (Ip.Address.v6 mappedMetadata).canonical ∈ deniedHosts none ∨
            ∃ v4 ∈ (Ip.Address.v6 mappedMetadata).mapped, v4.canonical ∈ deniedHosts none)) ∧
      (RangeRejects none (.v6 mappedMetadata) ∨
        (toLowerCase "::ffff:100.100.100.200".toList ∈ deniedHosts none ↔
          toLowerCase "::ffff:6464:64C8".toList ∈ deniedHosts none)) := by
  intro _
  obtain ⟨hdotted, hhex⟩ := mappedMetadata_spellings
  have hjudged := @judged_like_literal_iff asciiCase _ _ _ _ _ _ mappedMetadata_compared _ _
    hdotted hhex
  rw [← hjudged.1, ← hjudged.2]
  decide

end ClaimRush.Agents
