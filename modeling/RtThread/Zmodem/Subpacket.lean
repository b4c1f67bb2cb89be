import Mathlib.Algebra.Ring.Nat
import RtThread.Library.Prefixes

/-!
# Check sums of ZMODEM

The tables and the two macros of `crc.h`.
-/

namespace RtThread.Zmodem

def crctab : List (BitVec 16) := [0x0000, 0x1021, 0x2042, 0x3063, 0x4084, 0x50a5, 0x60c6, 0x70e7,
  0x8108, 0x9129, 0xa14a, 0xb16b, 0xc18c, 0xd1ad, 0xe1ce, 0xf1ef,
  0x1231, 0x0210, 0x3273, 0x2252, 0x52b5, 0x4294, 0x72f7, 0x62d6,
  0x9339, 0x8318, 0xb37b, 0xa35a, 0xd3bd, 0xc39c, 0xf3ff, 0xe3de,
  0x2462, 0x3443, 0x0420, 0x1401, 0x64e6, 0x74c7, 0x44a4, 0x5485,
  0xa56a, 0xb54b, 0x8528, 0x9509, 0xe5ee, 0xf5cf, 0xc5ac, 0xd58d,
  0x3653, 0x2672, 0x1611, 0x0630, 0x76d7, 0x66f6, 0x5695, 0x46b4,
  0xb75b, 0xa77a, 0x9719, 0x8738, 0xf7df, 0xe7fe, 0xd79d, 0xc7bc,
  0x48c4, 0x58e5, 0x6886, 0x78a7, 0x0840, 0x1861, 0x2802, 0x3823,
  0xc9cc, 0xd9ed, 0xe98e, 0xf9af, 0x8948, 0x9969, 0xa90a, 0xb92b,
  0x5af5, 0x4ad4, 0x7ab7, 0x6a96, 0x1a71, 0x0a50, 0x3a33, 0x2a12,
  0xdbfd, 0xcbdc, 0xfbbf, 0xeb9e, 0x9b79, 0x8b58, 0xbb3b, 0xab1a,
  0x6ca6, 0x7c87, 0x4ce4, 0x5cc5, 0x2c22, 0x3c03, 0x0c60, 0x1c41,
  0xedae, 0xfd8f, 0xcdec, 0xddcd, 0xad2a, 0xbd0b, 0x8d68, 0x9d49,
  0x7e97, 0x6eb6, 0x5ed5, 0x4ef4, 0x3e13, 0x2e32, 0x1e51, 0x0e70,
  0xff9f, 0xefbe, 0xdfdd, 0xcffc, 0xbf1b, 0xaf3a, 0x9f59, 0x8f78,
  0x9188, 0x81a9, 0xb1ca, 0xa1eb, 0xd10c, 0xc12d, 0xf14e, 0xe16f,
  0x1080, 0x00a1, 0x30c2, 0x20e3, 0x5004, 0x4025, 0x7046, 0x6067,
  0x83b9, 0x9398, 0xa3fb, 0xb3da, 0xc33d, 0xd31c, 0xe37f, 0xf35e,
  0x02b1, 0x1290, 0x22f3, 0x32d2, 0x4235, 0x5214, 0x6277, 0x7256,
  0xb5ea, 0xa5cb, 0x95a8, 0x8589, 0xf56e, 0xe54f, 0xd52c, 0xc50d,
  0x34e2, 0x24c3, 0x14a0, 0x0481, 0x7466, 0x6447, 0x5424, 0x4405,
  0xa7db, 0xb7fa, 0x8799, 0x97b8, 0xe75f, 0xf77e, 0xc71d, 0xd73c,
  0x26d3, 0x36f2, 0x0691, 0x16b0, 0x6657, 0x7676, 0x4615, 0x5634,
  0xd94c, 0xc96d, 0xf90e, 0xe92f, 0x99c8, 0x89e9, 0xb98a, 0xa9ab,
  0x5844, 0x4865, 0x7806, 0x6827, 0x18c0, 0x08e1, 0x3882, 0x28a3,
  0xcb7d, 0xdb5c, 0xeb3f, 0xfb1e, 0x8bf9, 0x9bd8, 0xabbb, 0xbb9a,
  0x4a75, 0x5a54, 0x6a37, 0x7a16, 0x0af1, 0x1ad0, 0x2ab3, 0x3a92,
  0xfd2e, 0xed0f, 0xdd6c, 0xcd4d, 0xbdaa, 0xad8b, 0x9de8, 0x8dc9,
  0x7c26, 0x6c07, 0x5c64, 0x4c45, 0x3ca2, 0x2c83, 0x1ce0, 0x0cc1,
  0xef1f, 0xff3e, 0xcf5d, 0xdf7c, 0xaf9b, 0xbfba, 0x8fd9, 0x9ff8,
  0x6e17, 0x7e36, 0x4e55, 0x5e74, 0x2e93, 0x3eb2, 0x0ed1, 0x1ef0]

def cr3tab : List (BitVec 32) := [
  0x00000000, 0x77073096, 0xee0e612c, 0x990951ba, 0x076dc419, 0x706af48f, 0xe963a535, 0x9e6495a3,
  0x0edb8832, 0x79dcb8a4, 0xe0d5e91e, 0x97d2d988, 0x09b64c2b, 0x7eb17cbd, 0xe7b82d07, 0x90bf1d91,
  0x1db71064, 0x6ab020f2, 0xf3b97148, 0x84be41de, 0x1adad47d, 0x6ddde4eb, 0xf4d4b551, 0x83d385c7,
  0x136c9856, 0x646ba8c0, 0xfd62f97a, 0x8a65c9ec, 0x14015c4f, 0x63066cd9, 0xfa0f3d63, 0x8d080df5,
  0x3b6e20c8, 0x4c69105e, 0xd56041e4, 0xa2677172, 0x3c03e4d1, 0x4b04d447, 0xd20d85fd, 0xa50ab56b,
  0x35b5a8fa, 0x42b2986c, 0xdbbbc9d6, 0xacbcf940, 0x32d86ce3, 0x45df5c75, 0xdcd60dcf, 0xabd13d59,
  0x26d930ac, 0x51de003a, 0xc8d75180, 0xbfd06116, 0x21b4f4b5, 0x56b3c423, 0xcfba9599, 0xb8bda50f,
  0x2802b89e, 0x5f058808, 0xc60cd9b2, 0xb10be924, 0x2f6f7c87, 0x58684c11, 0xc1611dab, 0xb6662d3d,
  0x76dc4190, 0x01db7106, 0x98d220bc, 0xefd5102a, 0x71b18589, 0x06b6b51f, 0x9fbfe4a5, 0xe8b8d433,
  0x7807c9a2, 0x0f00f934, 0x9609a88e, 0xe10e9818, 0x7f6a0dbb, 0x086d3d2d, 0x91646c97, 0xe6635c01,
  0x6b6b51f4, 0x1c6c6162, 0x856530d8, 0xf262004e, 0x6c0695ed, 0x1b01a57b, 0x8208f4c1, 0xf50fc457,
  0x65b0d9c6, 0x12b7e950, 0x8bbeb8ea, 0xfcb9887c, 0x62dd1ddf, 0x15da2d49, 0x8cd37cf3, 0xfbd44c65,
  0x4db26158, 0x3ab551ce, 0xa3bc0074, 0xd4bb30e2, 0x4adfa541, 0x3dd895d7, 0xa4d1c46d, 0xd3d6f4fb,
  0x4369e96a, 0x346ed9fc, 0xad678846, 0xda60b8d0, 0x44042d73, 0x33031de5, 0xaa0a4c5f, 0xdd0d7cc9,
  0x5005713c, 0x270241aa, 0xbe0b1010, 0xc90c2086, 0x5768b525, 0x206f85b3, 0xb966d409, 0xce61e49f,
  0x5edef90e, 0x29d9c998, 0xb0d09822, 0xc7d7a8b4, 0x59b33d17, 0x2eb40d81, 0xb7bd5c3b, 0xc0ba6cad,
  0xedb88320, 0x9abfb3b6, 0x03b6e20c, 0x74b1d29a, 0xead54739, 0x9dd277af, 0x04db2615, 0x73dc1683,
  0xe3630b12, 0x94643b84, 0x0d6d6a3e, 0x7a6a5aa8, 0xe40ecf0b, 0x9309ff9d, 0x0a00ae27, 0x7d079eb1,
  0xf00f9344, 0x8708a3d2, 0x1e01f268, 0x6906c2fe, 0xf762575d, 0x806567cb, 0x196c3671, 0x6e6b06e7,
  0xfed41b76, 0x89d32be0, 0x10da7a5a, 0x67dd4acc, 0xf9b9df6f, 0x8ebeeff9, 0x17b7be43, 0x60b08ed5,
  0xd6d6a3e8, 0xa1d1937e, 0x38d8c2c4, 0x4fdff252, 0xd1bb67f1, 0xa6bc5767, 0x3fb506dd, 0x48b2364b,
  0xd80d2bda, 0xaf0a1b4c, 0x36034af6, 0x41047a60, 0xdf60efc3, 0xa867df55, 0x316e8eef, 0x4669be79,
  0xcb61b38c, 0xbc66831a, 0x256fd2a0, 0x5268e236, 0xcc0c7795, 0xbb0b4703, 0x220216b9, 0x5505262f,
  0xc5ba3bbe, 0xb2bd0b28, 0x2bb45a92, 0x5cb36a04, 0xc2d7ffa7, 0xb5d0cf31, 0x2cd99e8b, 0x5bdeae1d,
  0x9b64c2b0, 0xec63f226, 0x756aa39c, 0x026d930a, 0x9c0906a9, 0xeb0e363f, 0x72076785, 0x05005713,
  0x95bf4a82, 0xe2b87a14, 0x7bb12bae, 0x0cb61b38, 0x92d28e9b, 0xe5d5be0d, 0x7cdcefb7, 0x0bdbdf21,
  0x86d3d2d4, 0xf1d4e242, 0x68ddb3f8, 0x1fda836e, 0x81be16cd, 0xf6b9265b, 0x6fb077e1, 0x18b74777,
  0x88085ae6, 0xff0f6a70, 0x66063bca, 0x11010b5c, 0x8f659eff, 0xf862ae69, 0x616bffd3, 0x166ccf45,
  0xa00ae278, 0xd70dd2ee, 0x4e048354, 0x3903b3c2, 0xa7672661, 0xd06016f7, 0x4969474d, 0x3e6e77db,
  0xaed16a4a, 0xd9d65adc, 0x40df0b66, 0x37d83bf0, 0xa9bcae53, 0xdebb9ec5, 0x47b2cf7f, 0x30b5ffe9,
  0xbdbdf21c, 0xcabac28a, 0x53b39330, 0x24b4a3a6, 0xbad03605, 0xcdd70693, 0x54de5729, 0x23d967bf,
  0xb3667a2e, 0xc4614ab8, 0x5d681b02, 0x2a6f2b94, 0xb40bbe37, 0xc30c8ea1, 0x5a05df1b, 0x2d02ef8d]

def updcrc16 {width : Nat} (cp crc : BitVec width) : BitVec width :=
  (crctab.getD ((crc >>> 8) &&& 255).toNat 0).setWidth width ^^^ (crc <<< 8) ^^^ cp

def updcrc32 (b c : BitVec 32) : BitVec 32 :=
  cr3tab.getD ((c ^^^ b) &&& 0xff).toNat 0 ^^^ ((c >>> 8) &&& 0x00ffffff)

open PrefixCode

abbrev Byte := BitVec 8

/-- `rt_int16_t`, in which characters and the results of the readers are passed. -/
abbrev Short := BitVec 16

def zdle : Byte := 0o30
def can : Byte := 0o30
def xon : Byte := 0o21
def zresc : Byte := 0o176
def zcrce : Byte := 0x68
def zcrcg : Byte := 0x69
def zcrcq : Byte := 0x6a
def zcrcw : Byte := 0x6b
def zrub0 : Byte := 0x6c
def zrub1 : Byte := 0x6d
def zcan : Short := 16
def gotor : Short := 0o400
def gotcan : Short := gotor ||| 0o30
def timeout : Short := -2
def rtError : Short := 1

inductive CrcMode where
  | crc16
  | crc32
  | crc32Rle
deriving DecidableEq

def isFrameend (byte : Byte) : Bool :=
  byte = zcrce || byte = zcrcg || byte = zcrcq || byte = zcrcw

/-- `XON` and `XOFF`, with either parity. -/
def isFlow (byte : Byte) : Bool :=
  byte = 0o23 || byte = 0o223 || byte = 0o21 || byte = 0o221

def zsendZdleChar (ch : Byte) : List Byte :=
  if ch = 0o377 then [ch]
  else if ch = zdle then [zdle, ch ^^^ 0o100]
  else if isFlow ch then [zdle, ch ^^^ 0o100]
  else [ch]

def rleChars : List Byte → (i : Nat) → (tmp : Byte) → List Byte
  | [], _, _ => []
  | c :: buf, i, tmp =>
    if c = tmp ∧ i < 126 ∧ buf ≠ [] then rleChars buf (i + 1) tmp
    else if i = 0 then
      if tmp = zresc then tmp :: 0o100 :: rleChars buf 0 c else tmp :: rleChars buf 0 c
    else if i = 1 then
      if tmp ≠ zresc then tmp :: tmp :: rleChars buf 0 c else rleChars buf 1 tmp
    else if tmp = 0o40 ∧ i < 34 then zresc :: .ofNat 8 (i + 0o36) :: rleChars buf 0 c
    else zresc :: .ofNat 8 (i + 0o101) :: tmp :: rleChars buf 0 c

def crcChars : Nat → BitVec 32 → List Byte
  | 0, _ => []
  | i + 1, crc => crc.setWidth 8 :: crcChars i (crc >>> 8)

def zsendCrc16 (chars : List Byte) (frameend : Byte) : List Byte :=
  let crc := chars.foldl (fun crc char => updcrc16 (char.setWidth 32) crc) (0 : BitVec 32)
  let crc := updcrc16 (frameend.setWidth 32) crc
  let crc := updcrc16 0 (updcrc16 0 crc)
  chars.flatMap zsendZdleChar ++ [zdle, frameend] ++
    [(crc >>> 8).setWidth 8, crc.setWidth 8].flatMap zsendZdleChar

def zsendCrc32 (chars : List Byte) (frameend : Byte) : List Byte :=
  let crc := chars.foldl (fun crc char => updcrc32 (char.setWidth 32) crc) 0xffffffff
  let crc := updcrc32 (frameend.setWidth 32) crc
  chars.flatMap zsendZdleChar ++ [zdle, frameend] ++ (crcChars 4 (~~~ crc)).flatMap zsendZdleChar

/-- `zsend_bin_data`; `behind` is the byte behind the buffer, which the run-length coding
reads. -/
def zsendBinData (txCrc : CrcMode) (behind : Byte) (buf : List Byte) (frameend : Byte) :
    List Byte :=
  let frame := match txCrc with
    | .crc16 => zsendCrc16 buf frameend
    | .crc32 => zsendCrc32 buf frameend
    | .crc32Rle =>
      zsendCrc32 (rleChars (buf.tail ++ [behind]) 0 (buf.headD behind)) frameend
  if frameend = zcrcw then frame ++ [xon] else frame

/-- `zread_byte` from the label `again2` on, behind so many `CAN`. -/
def zreadEscaped : (cans : Nat) → List Byte → Option (Short × List Byte)
  | _, [] => none
  | cans, res :: line =>
    if res = can ∧ cans < 3 then zreadEscaped (cans + 1) line
    else if res = can then some (gotcan, line)
    else if isFrameend res then some (res.setWidth 16 ||| gotor, line)
    else if res = zrub0 then some (0o177, line)
    else if res = zrub1 then some (0o377, line)
    else if isFlow res then zreadEscaped 0 line
    else if res &&& 0o140 = 0o100 then some ((res ^^^ 0o100).setWidth 16, line)
    else some (-rtError, line)

/-- `zread_byte`, whose `zread_line` takes the next byte of the line.  It has no result where it
waits for one. -/
def zreadByte : List Byte → Option (Short × List Byte)
  | [] => none
  | res :: line =>
    if res &&& 0o140 ≠ 0 then some (res.setWidth 16, line)
    else if res = zdle then zreadEscaped 0 line
    else if isFlow res then zreadByte line
    else some (res.setWidth 16, line)

/-- The results of `zread_byte` on a line. -/
def zreadBytes (line : List Byte) : List Short := readMany zreadByte line.length line

/-- What a receiver returns, if it does, and the bytes it has stored. -/
structure Received where
  result : Option Short
  stores : List Byte

def Received.rxcount (received : Received) : BitVec 16 := .ofNat 16 received.stores.length

/-- A result of `zread_byte` that is no byte. -/
def isSpecial (res : Short) : Bool := res &&& ~~~ 0o377 ≠ 0

def isGotcrc (res : Short) : Bool :=
  res = zcrce.setWidth 16 ||| gotor || res = zcrcg.setWidth 16 ||| gotor ||
    res = zcrcq.setWidth 16 ||| gotor || res = zcrcw.setWidth 16 ||| gotor

def otherSpecial (res : Short) : Short :=
  if res = gotcan then zcan else if res = timeout then timeout else res

structure Check (width : Nat) where
  init : BitVec width
  update : Short → BitVec width → BitVec width
  bytes : Nat
  isWrong : BitVec width → Bool

def check16 : Check 16 where
  init := 0
  update res crc := updcrc16 res crc
  bytes := 2
  isWrong crc := crc &&& 0xffff ≠ 0

def check32 : Check 32 where
  init := 0xffffffff
  update res crc := updcrc32 (res.setWidth 32) crc
  bytes := 4
  isWrong crc := crc &&& 0xdebb20e3 ≠ 0

/-- The loop of `zrec_data16` and `zrec_data32`: it goes on while at most `last` bytes are
stored.  `flag` holds the frame end, once there is one. -/
def zrecData {width : Nat} (check : Check width) (last : Int) : List Short →
    (stores : List Byte) → (crc : BitVec width) → (flag : Option Short) → (crcCnt : Nat) → Received
  | results, stores, crc, flag, crcCnt =>
    if last < stores.length then ⟨some (-rtError), stores⟩
    else
      match results with
      | [] => ⟨none, stores⟩
      | res :: results =>
        if isSpecial res then
          if isGotcrc res then
            zrecData check last results stores (check.update (res &&& 0o377) crc) (some res)
              crcCnt
          else ⟨some (otherSpecial res), stores⟩
        else
          match flag with
          | some c =>
            if crcCnt + 1 < check.bytes then
              zrecData check last results stores (check.update res crc) flag (crcCnt + 1)
            else if check.isWrong (check.update res crc) then ⟨some (-rtError), stores⟩
            else ⟨some c, stores⟩
          | none =>
            zrecData check last results (stores ++ [res.setWidth 8]) (check.update res crc)
              none crcCnt

/-- The bytes that the loop at the label `spaces` stores: it counts `res` down. -/
def countdown (res : Short) : List Byte := ((List.range res.toNat).reverse).map (.ofNat 8)

/-- The loop of `zrec_data32r`.  `c` is the state of the run-length decoding, and then the frame
end. -/
def zrecRle (last : Int) : List Short → (stores : List Byte) → (crc : BitVec 32) → (c : Short) →
    (flag : Bool) → (crcCnt : Nat) → Received
  | results, stores, crc, c, flag, crcCnt =>
    if last < stores.length then ⟨some (-rtError), stores⟩
    else
      match results with
      | [] => ⟨none, stores⟩
      | res :: results =>
        if isSpecial res then
          if isGotcrc res then
            zrecRle last results stores (check32.update (res &&& 0o377) crc) res true crcCnt
          else ⟨some (otherSpecial res), stores⟩
        else if flag then
          if crcCnt + 1 < check32.bytes then
            zrecRle last results stores (check32.update res crc) c flag (crcCnt + 1)
          else if check32.isWrong (check32.update res crc) then ⟨some (-rtError), stores⟩
          else ⟨some c, stores⟩
        else
          let crc := check32.update res crc
          if c = 0 then
            if res = zresc.setWidth 16 then zrecRle last results stores crc (-1) flag crcCnt
            else zrecRle last results (stores ++ [res.setWidth 8]) crc 0 flag crcCnt
          else if c = -1 then
            if 0o40 ≤ res.toNat ∧ res.toNat < 0o100 then
              if last < stores.length + (res - 0o35).toInt then ⟨some (-rtError), stores⟩
              else zrecRle last results (stores ++ countdown 0o40) crc 0 flag crcCnt
            else if res = 0o100 then
              zrecRle last results (stores ++ [zresc]) crc 0 flag crcCnt
            else zrecRle last results stores crc res flag crcCnt
          else
            if (c - 0o100).toInt < 1 then ⟨some (-rtError), stores⟩
            else if last < stores.length + (c - 0o100).toInt then ⟨some (-rtError), stores⟩
            else zrecRle last results (stores ++ countdown res) crc 0 flag crcCnt

def zrecData16 (len : BitVec 16) (results : List Short) : Received :=
  zrecData check16 len.toNat results [] check16.init none 0

/-- `zrec_data32`, where `p` is so far behind `buf`. -/
def zrecData32 (p : Int) (len : BitVec 16) (results : List Short) : Received :=
  zrecData check32 (p + len.toInt) results [] check32.init none 0

/-- `zrec_data32r`, where `c` starts with any value. -/
def zrecData32r (c : Short) (len : BitVec 16) (results : List Short) : Received :=
  zrecRle len.toInt results [] check32.init c false 0

def zgetData (rxCrc : CrcMode) (p : Int) (c : Short) (len : BitVec 16) (line : List Byte) :
    Received :=
  match rxCrc with
  | .crc16 => zrecData16 len (zreadBytes line)
  | .crc32 => zrecData32 p len (zreadBytes line)
  | .crc32Rle => zrecData32r c len (zreadBytes line)

/-- A payload with a buffer that has room for it. -/
structure Transfer where
  payload : List Byte
  len : BitVec 16
  frameend : Byte
  positive : 1 ≤ payload.length
  short : payload.length < 2 ^ 15
  fits : payload.length ≤ len.toNat
  isFrameend : isFrameend frameend = true

/-- What has been sent is received. -/
def Transfer.RoundTrip (transfer : Transfer) (mode : CrcMode) (behind : Byte) (p : Int)
    (c : Short) : Prop :=
  let received := zgetData mode p c transfer.len
    (zsendBinData mode behind transfer.payload transfer.frameend)
  received.result = some (transfer.frameend.setWidth 16 ||| gotor) ∧
    received.rxcount.toNat = transfer.payload.length ∧ received.stores = transfer.payload

instance (transfer : Transfer) (mode : CrcMode) (behind : Byte) (p : Int) (c : Short) :
    Decidable (transfer.RoundTrip mode behind p c) :=
  inferInstanceAs (Decidable (_ ∧ _ ∧ _))

def Received.InBounds (received : Received) (len : BitVec 16) : Prop :=
  received.stores.length ≤ len.toNat

def plain (results : List Short) : List Short := results.takeWhile fun res => !isSpecial res

inductive Piece where
  | literal
  | run (length : Int) (value : Nat)

def pieces : (c : Short) → List Short → List Piece
  | _, [] => []
  | c, res :: results =>
    if c = 0 then
      if res = zresc.setWidth 16 then pieces (-1) results else .literal :: pieces 0 results
    else if c = -1 then
      if 0o40 ≤ res.toNat ∧ res.toNat < 0o100 then
        .run (res - 0o35).toInt 0o40 :: pieces 0 results
      else if res = 0o100 then .literal :: pieces 0 results
      else pieces res results
    else if (c - 0o100).toInt < 1 then []
    else .run (c - 0o100).toInt res.toNat :: pieces 0 results

def PiecesFit (len : Nat) : Nat → List Piece → Prop
  | _, [] => True
  | stored, .literal :: rest => stored < len ∧ PiecesFit len (stored + 1) rest
  | stored, .run length value :: rest =>
    len < stored + length ∨ stored + value ≤ len ∧ PiecesFit len (stored + value) rest

/-- The lines that stay inside of the buffer: at most as many bytes as it has, or a start pointer
that ends the loop before; and with the run-length coding, pieces that fit. -/
def LineFits (mode : CrcMode) (p : Int) (c : Short) (len : BitVec 16) (line : List Byte) : Prop :=
  match mode with
  | .crc16 => (plain (zreadBytes line)).length ≤ len.toNat
  | .crc32 => (plain (zreadBytes line)).length ≤ len.toNat ∨ p + len.toInt < len.toNat
  | .crc32Rle => len.toInt < 0 ∨ PiecesFit len.toNat 0 (pieces c (plain (zreadBytes line)))

end RtThread.Zmodem
