import LinuxUnix.Foundation.ByteOrder
import Mathlib.Data.Option.Basic

/-! # addr.c

The program takes an address apart with `inet_netof` and `inet_lnaof`, shifts the network
number to the left by eight bits whatever the class of the address is, and puts the parts
together with `inet_makeaddr`, which shifts once more if the number is small. Both are right
together for the addresses of class C, whose network number is then too large to be shifted
again, and where the first byte is zero; for every other address the network part that is
printed is wrong (`LinuxUnix.InternetAddress.rejoins_iff`).
-/

namespace LinuxUnix.InternetAddress

open ByteOrder

/-- `struct in_addr`: the address in network byte order. -/
structure InAddr where
  sAddr : BitVec 32
  deriving DecidableEq

/-- `htonl` does the same as `ntohl`. -/
def htonl (word : BitVec 32) : BitVec 32 := ntohl word

/-! ## The C library -/

/-- The classes of addresses; no network number stands in those after class C. -/
inductive Class
  | a
  | b
  | c
  | other
  deriving DecidableEq

/-- The class of an address in host byte order. -/
def classOf (address : BitVec 32) : Class :=
  if address < 0x80000000#32 then .a
  else if address < 0xc0000000#32 then .b
  else if address < 0xe0000000#32 then .c
  else .other

/-- `IN_CLASSA_NSHIFT`, `IN_CLASSB_NSHIFT` and `IN_CLASSC_NSHIFT`: the number of bits of the
host part. -/
def Class.nshift : Class → ℕ
  | .a => 24
  | .b => 16
  | .c | .other => 8

/-- `IN_CLASSA_HOST`, `IN_CLASSB_HOST` and `IN_CLASSC_HOST`. -/
def Class.hostMask : Class → BitVec 32
  | .a => 0xffffff
  | .b => 0xffff
  | .c | .other => 0xff

/-- The network number. -/
def inetNetof (ip : InAddr) : BitVec 32 :=
  ntohl ip.sAddr >>> (classOf (ntohl ip.sAddr)).nshift

/-- The host number. -/
def inetLnaof (ip : InAddr) : BitVec 32 :=
  ntohl ip.sAddr &&& (classOf (ntohl ip.sAddr)).hostMask

/-- An address made of a network number and a host number; the size of the network number
decides where it goes. -/
def inetMakeaddr (net host : BitVec 32) : InAddr where
  sAddr := htonl <|
    if net < 128#32 then net <<< Class.a.nshift ||| (host &&& Class.a.hostMask)
    else if net < 65536#32 then net <<< Class.b.nshift ||| (host &&& Class.b.hostMask)
    else if net < 16777216#32 then net <<< Class.c.nshift ||| (host &&& Class.c.hostMask)
    else net ||| host

/-! ## The program -/

/-- What `ip_netzwerk` prints. -/
structure Netzwerk where
  net : BitVec 64
  netIp : InAddr
  netNum : BitVec 64
  made : InAddr
  deriving DecidableEq

/-- `ip_netzwerk`, unless it returns for a network number of zero; the variables of type
`unsigned long` have 64 bits. -/
def ipNetzwerk (ip : InAddr) : Option Netzwerk :=
  let net : BitVec 64 := (inetNetof ip).setWidth 64
  if net = 0 then none
  else
    let netNum : BitVec 64 := (ntohl (inetNetof ip <<< 8)).setWidth 64
    some {
      net := net
      netIp := ⟨netNum.setWidth 32⟩
      netNum := netNum
      made := inetMakeaddr (htonl (netNum.setWidth 32)) 0 }

/-- What `ip_lokal` prints. -/
structure Lokal where
  lokalIp : InAddr
  lokalNum : BitVec 64
  made : InAddr
  deriving DecidableEq

/-- `ip_lokal` -/
def ipLokal (ip : InAddr) : Lokal :=
  let lokalNum : BitVec 64 := (ntohl (inetLnaof ip)).setWidth 64
  { lokalIp := ⟨lokalNum.setWidth 32⟩
    lokalNum := lokalNum
    made := inetMakeaddr 0 (htonl (lokalNum.setWidth 32)) }

/-- What `ip_zusammen` prints. -/
structure Zusammen where
  lokalIp : InAddr
  lokalNum : BitVec 64
  netIp : InAddr
  netNum : BitVec 64
  zusammenIp : InAddr
  deriving DecidableEq

/-- `ip_zusammen` -/
def ipZusammen (ip : InAddr) : Zusammen :=
  let lokalNum : BitVec 64 := (ntohl (inetLnaof ip)).setWidth 64
  let netNum : BitVec 64 := (ntohl (inetNetof ip <<< 8)).setWidth 64
  { lokalIp := ⟨lokalNum.setWidth 32⟩
    lokalNum := lokalNum
    netIp := ⟨netNum.setWidth 32⟩
    netNum := netNum
    zusammenIp := inetMakeaddr (htonl (netNum.setWidth 32)) (htonl (lokalNum.setWidth 32)) }

/-! ## What it is to print -/

/-- The address with the bits of its host part cleared. -/
def networkPart (ip : InAddr) : InAddr :=
  ⟨ntohl (above (classOf (ntohl ip.sAddr)).nshift (ntohl ip.sAddr))⟩

/-- The address with the bits of its network part cleared. -/
def hostPart (ip : InAddr) : InAddr :=
  ⟨ntohl (below (classOf (ntohl ip.sAddr)).nshift (ntohl ip.sAddr))⟩

/-- The two parts are printed wherever a part is, they make up the address, and so does what
they are joined to. -/
structure Rejoins (ip : InAddr) : Prop where
  netzwerk : ∀ printed ∈ ipNetzwerk ip,
    printed.netIp = networkPart ip ∧ printed.made = networkPart ip
  lokal : (ipLokal ip).lokalIp = hostPart ip ∧ (ipLokal ip).made = hostPart ip
  parts : (ipZusammen ip).netIp = networkPart ip ∧ (ipZusammen ip).lokalIp = hostPart ip
  union : (ipZusammen ip).netIp.sAddr ||| (ipZusammen ip).lokalIp.sAddr = ip.sAddr
  zusammen : (ipZusammen ip).zusammenIp = ip

variable {ip : InAddr}

theorem hostMask_eq (class_ : Class) :
    class_.hostMask = ~~~(BitVec.allOnes 32 <<< class_.nshift) := by
  cases class_ <;> rfl

/-- The host number is right in every class. -/
theorem ntohl_inetLnaof (ip : InAddr) : ntohl (inetLnaof ip) = (hostPart ip).sAddr := by
  rw [inetLnaof, hostMask_eq]
  rfl

theorem hostMask_and (class_ : Class) : class_.hostMask &&& Class.a.hostMask = class_.hostMask := by
  cases class_ <;> rfl

theorem setWidth_back (word : BitVec 32) : (word.setWidth 64).setWidth 32 = word := by
  rw [BitVec.setWidth_setWidth_of_le _ (by decide), BitVec.setWidth_eq]

/-- Where no network number is added, the host number alone is the address. -/
theorem inetMakeaddr_zero (ip : InAddr) : inetMakeaddr 0 (inetLnaof ip) = hostPart ip := by
  have none_ : (0 : BitVec 32) <<< Class.a.nshift = 0#32 := BitVec.zero_shiftLeft _
  rw [inetMakeaddr, if_pos (by decide), none_, BitVec.zero_or, inetLnaof, BitVec.and_assoc,
    hostMask_and, hostMask_eq]
  rfl

theorem lokal_eq (ip : InAddr) :
    (ipLokal ip).lokalIp = hostPart ip ∧ (ipLokal ip).made = hostPart ip := by
  simp only [ipLokal, setWidth_back, htonl, ntohl_ntohl, inetMakeaddr_zero, and_true]
  rw [ntohl_inetLnaof]

/-- The program shifts the network number by the right number of bits, or it is zero. -/
def Fits (ip : InAddr) : Prop :=
  classOf (ntohl ip.sAddr) = .c ∨ ntohl ip.sAddr >>> 24 = 0

instance (ip : InAddr) : Decidable (Fits ip) := inferInstanceAs (Decidable (_ ∨ _))

theorem shifted_toNat (address : BitVec 32) (right left : ℕ) :
    (address >>> right <<< left).toNat = address.toNat / 2 ^ right * 2 ^ left % 4294967296 := by
  rw [BitVec.toNat_shiftLeft, BitVec.toNat_ushiftRight, Nat.shiftLeft_eq,
    Nat.shiftRight_eq_div_pow]

/-- A number that two shifts take to the same place is zero. -/
theorem shifts_agree_iff {count left right : ℕ} (less : left < right)
    (fits : count * 2 ^ right < 4294967296) :
    count * 2 ^ left % 4294967296 = count * 2 ^ right % 4294967296 ↔ count = 0 := by
  have smaller : count * 2 ^ left ≤ count * 2 ^ right :=
    Nat.mul_le_mul_left count (Nat.pow_le_pow_right (by decide) (Nat.le_of_lt less))
  rw [Nat.mod_eq_of_lt (by omega), Nat.mod_eq_of_lt fits]
  constructor
  · intro same
    rcases Nat.eq_zero_or_pos count with zero | positive
    · exact zero
    · have equal := Nat.eq_of_mul_eq_mul_left positive same
      exact absurd (Nat.pow_right_injective (Nat.le_refl 2) equal) (Nat.ne_of_lt less)
  · rintro rfl
    rw [Nat.zero_mul, Nat.zero_mul]

/-- Of a host part of more than eight bits the shift leaves only a zero network number where
it belongs. -/
theorem shifted_eq_above_iff {count : ℕ} (more : 8 < count) (address : BitVec 32) :
    address >>> count <<< 8 = above count address ↔ address >>> count = 0 := by
  have fits : address.toNat / 2 ^ count * 2 ^ count < 4294967296 :=
    Nat.lt_of_le_of_lt (Nat.div_mul_le_self ..) address.isLt
  rw [above, ← BitVec.toNat_inj, shifted_toNat, shifted_toNat, shifts_agree_iff more fits,
    ← BitVec.toNat_inj, BitVec.toNat_ushiftRight, Nat.shiftRight_eq_div_pow]
  rfl

theorem ushiftRight_eq_zero_iff {count : ℕ} {address : BitVec 32} :
    address >>> count = 0 ↔ address.toNat < 2 ^ count := by
  rw [← BitVec.toNat_inj, BitVec.toNat_ushiftRight, Nat.shiftRight_eq_div_pow]
  exact Nat.div_eq_zero_iff_lt (Nat.two_pow_pos count)

theorem le_of_classOf_b {address : BitVec 32} (class_ : classOf address = .b) :
    2147483648 ≤ address.toNat := by
  unfold classOf at class_
  split at class_
  · cases class_
  · rename_i large
    exact Nat.le_of_not_lt large

/-- The network number, shifted by eight bits, is the network part if and only if it fits. -/
theorem shifted_eq_iff (unicast : classOf (ntohl ip.sAddr) ≠ .other) :
    inetNetof ip <<< 8 = above (classOf (ntohl ip.sAddr)).nshift (ntohl ip.sAddr) ↔ Fits ip := by
  rw [inetNetof, Fits]
  cases class_ : classOf (ntohl ip.sAddr) with
  | a =>
      rw [or_iff_right Class.noConfusion]
      exact shifted_eq_above_iff (by decide) _
  | b =>
      have large := le_of_classOf_b class_
      rw [or_iff_right Class.noConfusion]
      refine (shifted_eq_above_iff (by decide) _).trans ?_
      rw [ushiftRight_eq_zero_iff, ushiftRight_eq_zero_iff]
      exact iff_of_false (by simp only [Class.nshift]; omega) (by omega)
  | c => exact iff_of_true rfl (.inl rfl)
  | other => exact absurd class_ unicast

theorem networkPart_eq_iff (unicast : classOf (ntohl ip.sAddr) ≠ .other) :
    (ipZusammen ip).netIp = networkPart ip ↔ Fits ip := by
  rw [← shifted_eq_iff unicast, ← ntohl_inj, networkPart, InAddr.mk.injEq]
  simp only [ipZusammen, setWidth_back]

/-- A large network number is not shifted again. -/
theorem inetMakeaddr_of_large {net : BitVec 32} (large : 16777216 ≤ net.toNat)
    (host : BitVec 32) : inetMakeaddr net host = ⟨htonl (net ||| host)⟩ := by
  have notLess {bound : BitVec 32} (low : bound.toNat ≤ 16777216) : ¬ net < bound :=
    Nat.not_lt_of_le (Nat.le_trans low large)
  rw [inetMakeaddr, if_neg (notLess (by decide)), if_neg (notLess (by decide)),
    if_neg (notLess (Nat.le_refl _))]

theorem le_of_classOf_c {address : BitVec 32} (class_ : classOf address = .c) :
    3221225472 ≤ address.toNat := by
  unfold classOf at class_
  split at class_
  · cases class_
  · split at class_
    · cases class_
    · rename_i large
      exact Nat.le_of_not_lt large

/-- The network part of an address of class C is a large number. -/
theorem large_above {address : BitVec 32} (class_ : classOf address = .c) :
    16777216 ≤ (above 8 address).toNat := by
  have large := le_of_classOf_c class_
  have inside := address.isLt
  rw [above, shifted_toNat, Nat.mod_eq_of_lt (by omega)]
  omega

/-- Both parts of the address together. -/
theorem parts_or (ip : InAddr) :
    (networkPart ip).sAddr ||| (hostPart ip).sAddr = ip.sAddr := by
  rw [networkPart, hostPart, ← ntohl_or, above_or_below, ntohl_ntohl]

theorem zusammen_of_c (class_ : classOf (ntohl ip.sAddr) = .c) (host : BitVec 32) :
    inetMakeaddr (inetNetof ip <<< 8) host = ⟨(networkPart ip).sAddr ||| htonl host⟩ := by
  have shifted : inetNetof ip <<< 8 = above 8 (ntohl ip.sAddr) := by
    rw [inetNetof, class_]
    rfl
  rw [shifted, inetMakeaddr_of_large (large_above class_), networkPart, class_, htonl, ntohl_or]
  rfl

/-- An address whose first byte is zero is of class A, and its network number is zero. -/
theorem classOf_of_firstZero {address : BitVec 32} (zero : address >>> 24 = 0) :
    classOf address = .a := by
  have small := ushiftRight_eq_zero_iff.mp zero
  have less : address < 0x80000000#32 := Nat.lt_trans small (by decide)
  rw [classOf, if_pos less]

theorem inetNetof_of_firstZero (zero : ntohl ip.sAddr >>> 24 = 0) : inetNetof ip = 0 := by
  rw [inetNetof, classOf_of_firstZero zero]
  exact zero

theorem hostPart_of_firstZero (zero : ntohl ip.sAddr >>> 24 = 0) : hostPart ip = ip := by
  have none_ : (networkPart ip).sAddr = 0 := by
    rw [networkPart, classOf_of_firstZero zero, above]
    simp only [Class.nshift, zero]
    rfl
  have whole := parts_or ip
  rw [none_] at whole
  exact congrArg InAddr.mk ((BitVec.zero_or).symm.trans whole)

theorem zusammen_eq (fits : Fits ip) : (ipZusammen ip).zusammenIp = ip := by
  have joined : (ipZusammen ip).zusammenIp =
      inetMakeaddr (inetNetof ip <<< 8) (inetLnaof ip) := by
    simp only [ipZusammen, setWidth_back, htonl, ntohl_ntohl]
  rw [joined]
  cases fits with
  | inl class_ =>
      rw [zusammen_of_c class_, htonl, ntohl_inetLnaof, parts_or]
  | inr zero =>
      have none_ : (0 : BitVec 32) <<< 8 = 0 := rfl
      rw [inetNetof_of_firstZero zero, none_, inetMakeaddr_zero, hostPart_of_firstZero zero]

/-- `ip_netzwerk` prints the network part, or nothing. -/
theorem netzwerk_eq (fits : Fits ip) : ∀ printed ∈ ipNetzwerk ip,
    printed.netIp = networkPart ip ∧ printed.made = networkPart ip := by
  intro printed there
  rw [ipNetzwerk] at there
  split at there
  · cases there
  · rename_i some_
    cases there
    simp only [setWidth_back, htonl, ntohl_ntohl]
    cases fits with
    | inl class_ =>
        have shifted : inetNetof ip <<< 8 = above 8 (ntohl ip.sAddr) := by
          rw [inetNetof, class_]
          rfl
        rw [zusammen_of_c class_, shifted, networkPart, class_]
        exact ⟨rfl, congrArg InAddr.mk BitVec.or_zero⟩
    | inr zero =>
        rw [inetNetof_of_firstZero zero] at some_
        exact absurd rfl some_

/-- For every address of class A, B or C, the parts are printed as they are and are joined to
the address again if and only if the address is of class C or its first byte is zero. -/
theorem rejoins_iff (unicast : classOf (ntohl ip.sAddr) ≠ .other) : Rejoins ip ↔ Fits ip := by
  constructor
  · intro rejoins
    exact (networkPart_eq_iff unicast).mp rejoins.parts.1
  · intro fits
    have network := (networkPart_eq_iff unicast).mpr fits
    have host : (ipZusammen ip).lokalIp = hostPart ip := (lokal_eq ip).1
    exact ⟨netzwerk_eq fits, lokal_eq ip, ⟨network, host⟩, by rw [network, host, parts_or],
      zusammen_eq fits⟩

/-- 192.168.1.77 -/
theorem rejoins_privateAddress : Rejoins ⟨0x4d01a8c0⟩ :=
  (rejoins_iff (by decide)).mpr (by decide)

/-- 10.1.2.3 becomes 10.0.2.3. -/
theorem not_rejoins_of_classes : ¬ ∀ ip : InAddr,
    classOf (ntohl ip.sAddr) ≠ .other → Rejoins ip := by
  intro claim
  have joined := (claim ⟨0x0302010a⟩ (by decide)).zusammen
  revert joined
  decide

end LinuxUnix.InternetAddress
