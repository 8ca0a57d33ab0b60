import Tinct.CharSet

/-!
# Letter case

The two case mappings of the Unicode character database that the library uses:

* `foldCase`: a set of characters with every character that differs from a member only by simple
  case folding, for patterns that ignore case, which follow version 16.0;
* `lowercase`: the full lower-case form of a text, for keywords that ignore case, which follow
  version 17.0. `İ` becomes two characters, and `Σ` takes its final form at the end of a word.

A mapping is kept as runs of code points that move by the same distance.
-/

namespace Tinct.Unicode

/-- Every `stride`-th code point from `lo` to `hi`, mapped to `target` and its successors. -/
structure CaseRun where
  lo : Nat
  hi : Nat
  stride : Nat
  target : Nat
deriving Repr

namespace CaseRun

/-- The run that maps the other way. -/
def inverse (r : CaseRun) : CaseRun := ⟨r.target, r.target + (r.hi - r.lo), r.stride, r.lo⟩

def map? (r : CaseRun) (n : Nat) : Option Nat :=
  if r.lo ≤ n ∧ n ≤ r.hi ∧ (n - r.lo) % r.stride = 0 then some (n - r.lo + r.target) else none

/-- Where the run takes the members of a range. -/
def image (r : CaseRun) (s : CharRange) : List CharRange :=
  let lo := max r.lo s.lo
  let hi := min r.hi s.hi
  if hi < lo then []
  else if r.stride = 1 then [⟨lo - r.lo + r.target, hi - r.lo + r.target⟩]
  else (List.range (hi + 1 - lo)).filterMap fun i =>
    (r.map? (lo + i)).map fun n => ⟨n, n⟩

/-- The runs of a packed table: for each the distance from the run before it, its length less
one, its stride less one and its target. -/
def unpack : Nat → List Nat → List CaseRun
  | start, gap :: more :: skip :: target :: ns =>
    ⟨start + gap, start + gap + more * (skip + 1), skip + 1, target⟩ :: unpack (start + gap) ns
  | _, _ => []

end CaseRun

/-- Simple case folding, as runs. -/
def foldRuns : List CaseRun :=
  ⟨0x41, 0x5A, 1, 0x61⟩ :: CaseRun.unpack 0x41 (CharSet.unpackNumbers 0 <| String.toList <|
    String.join [
    "4MAA10ULWA8QYGA9O1OXB9X1YCBbVHHBcCRWBcT1UAA9VBCBeOGAA4LCAAmXBBBeXEAAmYBAAfCCBAnACAAfGDAAiJBA",
    "AnDBAAnFBAAfMCAAnKBAAnNCAAnTBAAnSBAAfTEAAnZBAAoCCAAoFBCBgBGAAoQBAAgICAAoTDAAgNCAAoYBAAgQCBAp",
    "ACBBgUEAApIBAAgZEAAhDIAAhMBAAhMCAAhPBAAhPCAAhSBIBhSTIBiLTAAjFBBBjFEAAfPBAAhFBTBjL1OAAfYCIBlB",
    "YAAc5DBAAmACAAfUBAAc5EDAAmGCAAeUBAAoZBAApCBEBmL9VAA10R1RBBxXGAAyDJAA12XHAA10ECCA10FEAA11KCBA",
    "11LDQA10JSIA11B1FAA11BNAA11VBAA10KBAA10QEAA11EBAA10YCLB11XYAA10SBAA10ZDAA10QBAA10NCAA13CCAA1",
    "2WBAA13FDCAyHDPA16MQ1FA15G3CQB17D1Q1AB18T2CAA1bJBGB1aWP1VB1bL3T1LA1gZ34P1LAcbC1NAAccPGAAccVr",
    "V3BA1awA3CFA5gQ2cIAA15IBAA15KBAA15UBBA15XCAA15YBAA16GBAA17FBAA19hJBAA7tAH1QA4lO1TCA4nHcL2WB8",
    "7L5ZAA8bDDAA8PC1VB8dP4AHA8hGQFA8hWQHA8iMQHA8jCQFA8jSRDB8kJPHA8kY1GHA8mEQHA8mUQHA8nKQBA8oACBA",
    "8lOCAA8oDCAA10RKDA8lQEAA8oTHAAzCFBA8pGCBA8lUJAA10IFBA8pWCBA8lYCAA8qBMBA8lWCBA8mACAA8qPbMAA11",
    "HEAA4DBAA8VHAA93Y1UPA95G1JAA96AvNZAa2M1zU1VAc3C3SAAc4ZCAAnVBAA82JBAAoNDCBc5GGAAmVBAAoBBAAmUB",
    "AAmWCAAc5RDAAc5UJBAmDC1XBc6F4DBBcaIHAAcaPx6KWB19gZ2MNB19jL6GGB19pRQ1EB19qH2TBB19tAEAA82FBEB1",
    "9tFNAA19tSCAAnPDBB19tXGJB19uDUAAnQBAAnGBAAnLBAAnWBAAnUCAApUBAAoXBAApTBAA1auXBHB19vHQAA19uABA",
    "AoSBAA83ABBB19wAEAAnOBAA19wFEAA19wJGCB19wPGAAfVZAA19xUmpXAA1wnP14LZA1xtH1bZ1NA1z5O6U1JA1zcI7",
    "KKA1zjRMOA1zkDQGA1zkTIBA1zlB1wE1YA21iE8AVA21oY33K1FA24sInfC1FA2s7KxkQ1HA3psC"])

/-- Lower case, character by character, as runs; `İ` is left out. -/
def lowerRuns : List CaseRun :=
  ⟨0x41, 0x5A, 1, 0x61⟩ :: CaseRun.unpack 0x41 (CharSet.unpackNumbers 0 <| String.toList <|
    String.join [
    "4XWA8QYGA9O1OXB9X1YCBbVHHBcCRWBcT1UAA9VBCBeOIAAmXBBBeXEAAmYBAAfCCBAnACAAfGDAAiJBAAnDBAAnFBAA",
    "fMCAAnKBAAnNCAAnTBAAnSBAAfTEAAnZBAAoCCAAoFBCBgBGAAoQBAAgICAAoTDAAgNCAAoYBAAgQCBApACBBgUEAApI",
    "BAAgZEAAhDIAAhMBAAhMCAAhPBAAhPCAAhSBIBhSTIBiLTAAjFBBBjFEAAfPBAAhFBTBjL1OAAfYCIBlBYAAc5DBAAmA",
    "CAAfUBAAc5EDAAmGCAAeUBAAoZBAApCBEBmLbMBBxXGAAyDJAA12XHAA10ECCA10FEAA11KCBA11LDQA10JSIA11B1SA",
    "A11VJLB11X1CAA10QDAA13CCAA12WBAA13FDCAyHDPA16MQ1FA15G3CQB17D1Q1AB18T2CAA1bJBGB1aWP1VB1bL3T1L",
    "A1gZ34P1LAcbC1NAAccPGAAccVrV3BA1awA3CFA5gQ2cRAA7tAH1QA4lO1TCA4nHcL2WB87L6CAA8PC1VB8dP4AHA8hG",
    "QFA8hWQHA8iMQHA8jCQFA8jSRDB8kJPHA8kY1GHA8mEQHA8mUQHA8nKQBA8oACBA8lOCAA8oDMDA8lQEAA8oTMBA8pGC",
    "BA8lUOBA8pWCBA8lYCAA8qBMBA8lWCBA8mACAA8qPbMAA11HEAA4DBAA8VHAA93Y1UPA95G1JAA96AvNZAa2M1zU1VAc",
    "3C3SAAc4ZCAAnVBAA82JBAAoNDCBc5GGAAmVBAAoBBAAmUBAAmWCAAc5RDAAc5UJBAmDC1XBc6F4DBBcaIHAAcaPx6KW",
    "B19gZ2MNB19jL6GGB19pRQ1EB19qH2TBB19tAEAA82FBEB19tFNAA19tSCAAnPDBB19tXGJB19uDUAAnQBAAnGBAAnLB",
    "AAnWBAAnUCAApUBAAoXBAApTBAA1auXBHB19vHQAA19uABAAoSBAA83ABBB19wAEAAnOBHB19wFQAAfVZAA19xUnuIZA",
    "1xtH1bZ1NA1z5O6U1JA1zcI7KKA1zjRMOA1zkDQGA1zkTIBA1zlB1wE1YA21iE8AVA21oY33K1FA24sInfC1FA2s7K3S",
    "YA2saXxgY1HA3psC"])

/-- Characters that are lower case, upper case or title case. -/
def cased : CharSet :=
  .ofSorted (⟨0x41, 0x5A⟩ :: ⟨0x61, 0x7A⟩ :: CharSet.unpack 0x80 [
    "1QAKAEAFWB1EB7MBDE7ZC1IHB1EE3SA1QDCBCDBAGABCBABTB3EB5II6JB1LJ1O31F1LBAFAC1QBDpW3HCF2bUKF1QCC",
    "2M7J2MaRCFC1LCFCHBABABAB1EC2ABGBADCBGDDCFEMFCBG4MANAQM3XAEACJBADEGABABABDBFEACDFEEAR1FDBvL1Z",
    "1xU8UGDDBM1LBAFAx4C1TS1D5C3XDDB2YUFBCvP1QBNG3BloIGME13TZGZ19T3B3S1JE1J4MKBOBGBBBKBOBGBBhJACC",
    "B1PBI1aZ1YN1Y3PVKV31I2LncQ2L1GYCYroE3GB2SBBCACBCDBLBABGB2MBDCHBGB1BBDBEBADGBdBCYBYB1EBYB1EBY",
    "B1EBYB1EBYBH1yYJBTGFaB2J2cK2P26AZGZGZ"])

/-- Characters that case rules look through. -/
def caseIgnorable : CharSet :=
  .ofSorted (⟨0x27, 0x27⟩ :: ⟨0x2E, 0x2E⟩ :: ⟨0x3A, 0x3A⟩ :: ⟨0x5E, 0x5E⟩ :: ⟨0x60, 0x60⟩ ::
    CharSet.unpack 0x80 [
    "1OAEABAEACBjJ7JEBEAJBBA9RG7ZAFA1X1SBABBBBBA1SALFKKBA1JAKUQA3XHBJBD1HABA1E1A3NK2GKEACAYX1RC1S",
    "AHBFI1P2F2DABAEHEADGKBNAPA2GAEDIAUB1AACB2FAEBEBCCDA1EBDALB2FAEEBBEAUBWFBA2GACABDIAHBLB1EA2JA",
    "MA1YADA2DABCFCBDHBLB1DA2GACAGAFBUB1CB2FBEDIAUB1DA2UAHCBA3MACGLI3UACIJABG2VB1BABABA2DNBEBBFKB",
    "1JJA3YDBFBBCBZBECQDNACBGAPA3QAnKC10KC1DB1EB1EB2MBBGIACKDAFA1TE1ZA2NB1IA4OCEBJAGC8LBCA2GABGBA",
    "BACHGJCA1NAI1TCLUD1WABEBAFA1OIMB1GDCBBC2EABBDABC2GHCB2MF3ECBMBGEAGADB1Y2KNA1I3WhDABCLCNCNCNB",
    "MEIBKACACE1XEBJBANAQM1Z1G35RB4JC4VAPA3S1F1VAiBA1KDDEFA3PF3PCudUA1cCFaKA3UDBJBA1CD3CBO1H3AAXC",
    "3YDDBIADAEAZBFA5VB1ARNA1MHZK1UC1WACDCBRAVB2OFCBCBMAIA1JALA1ZABCCBFBBA1BAOBFBBA3WEJC4RACAEAln",
    "SA5RQmBPDAMP1IACA6NAHAGALA1JABA1VA1TB2PAVCjTA8SA5TE13PFB1PBImKCBBFD1OCEA6JBmBD1MA1AEBAcDBYA2",
    "AF2SK1XD4TA2CO1PACBKC1XDCBCAEAKA1YC1KEBH2KAMB2AIKDCA3RCCABBGACA6BADHVB2FBDA1LGDE2SFNABABAOB3",
    "HHCCBAXA3GFBAEBBB9EDGBBB1BB3HHCABB4CABACFBA3XABACDBE9ZIBB9WBBAEA5ODCBEA1GJ1OFCDIAJFCC1UMBB7Q",
    "ABCBA7TGBFBA3EVCGBBBB4SFDABBBGBA2UBDABA2NAaVBLB2AEFABAXA5pDQGOc8YLDC2oAE2HGJDjOC1OBiOA2LQ2MB",
    "BBNBhiADBGBB3gGBBD50U1TCWkYCJPCG1ED5SC24D2CE1XIAOAWEBO1gIGBQCGBBBEF2J1HA6ENeEA2JDjNE9UB9JACA",
    "HBFAJAhWG4FH2xFEnfhPA1E3R4Y9F"])

/-- Where the runs take the members of a set. -/
def images (runs : List CaseRun) (s : CharSet) : CharSet :=
  .ofRanges (runs.flatMap fun r => s.ranges.flatMap r.image)

/-- The characters with the same simple case folding as a member of `s`. A folded character folds
to itself, so what folds alike is the folded characters and all that folds to them. -/
def foldCase (s : CharSet) : CharSet :=
  let folded := s.union (images foldRuns s)
  folded.union (images (foldRuns.map CaseRun.inverse) folded)

/-- Whether the first character that case rules do not look through has a case. -/
def nextIsCased (cs : List Char) : Bool :=
  match cs.dropWhile caseIgnorable.contains with
  | c :: _ => cased.contains c
  | [] => false

/-- The lower-case form of one character. -/
def lowerChar (c : Char) : List Char :=
  if c = 'İ' then ['i', '\u0307']
  else if c.toNat < 0x80 then [c.toLower]
  else [((lowerRuns.findSome? fun r => r.map? c.toNat).map Char.ofNat).getD c]

/-- The lower-case form of `cs`, `before` being the text in front of it, last character first.
`Σ` is final after a letter and before none. -/
def lowerFrom (before : List Char) : List Char → List Char
  | [] => []
  | c :: cs =>
    let low :=
      if c = 'Σ' then if nextIsCased before && !nextIsCased cs then ['ς'] else ['σ']
      else lowerChar c
    low ++ lowerFrom (c :: before) cs

def lowercase (s : String) : String := .ofList (lowerFrom [] s.toList)

end Tinct.Unicode
