import Tinct.CharSet

/-!
# Word characters, digits and blanks

The sets behind the classes `\w`, `\d` and `\s` and behind splitting a list of words:

* `word`: letters, marks, decimal digits, connecting punctuation and joiners;
* `digit`: the decimal digits of every script;
* `blank`: white space, line ends included.

The ASCII members stand in front, unpacked, so that asking about an ASCII character never
reads the packed rest.
-/

namespace Tinct.Unicode

/-- White space: what separates the words of a keyword list. -/
def blank : CharSet :=
  .ofSorted [⟨0x9, 0xD⟩, ⟨0x20, 0x20⟩, ⟨0x85, 0x85⟩, ⟨0xA0, 0xA0⟩,
    ⟨0x1680, 0x1680⟩, ⟨0x2000, 0x200A⟩, ⟨0x2028, 0x2029⟩, ⟨0x202F, 0x202F⟩,
    ⟨0x205F, 0x205F⟩, ⟨0x3000, 0x3000⟩]

/-- Decimal digits. -/
def digit : CharSet :=
  .ofSorted (⟨0x30, 0x39⟩ :: CharSet.unpack 0x80 [
    "1lWJ5EJ7QJfWJ4OJ4OJ4OJ4OJ4OJ4OJ4OJ4OJ4OJ3SJ4OJ2SJaSJ2SJ1zQJ1MJbOJ4YJ6KJGJ7AJ3IJ5EJGJ11oOJqCJ",
    "1MJ7QJWJ3IJfQJmqCJ1iKJ2bYJGJuQJ4YJ2IJ5OJaSJdEJ4OJeKJ3YJGT2YJgGJ3YJpMJ3IJ9MJ2SJgGJi0GJ2iCJ3IJ",
    "5EJkOJq3YJ2yQ1X2jCJgGJjIJ9NJwVJ53AJ"])

/-- Word characters. -/
def word : CharSet :=
  .ofSorted (⟨0x30, 0x39⟩ :: ⟨0x41, 0x5A⟩ :: ⟨0x5F, 0x5F⟩ :: ⟨0x61, 0x7A⟩ ::
    CharSet.unpack 0x80 [
    "1QAKAEAFWB1EBhPELOEHABAR4MBBCDBAGABCBABTB3EB5IB6QB1LCAG1OI1SBABBBBBAI1AED1DKF2VE3XBHCJBSCAQ2",
    "GC3WO2BEACAC1TS1BEKFXBFI2WB4YCJBSBHCBCVBGBADDCICBCDIAEBBECLKABACCBFEBCVBGBBBBBBCABEEBCCDAHDB",
    "AHPLCBIBCBVBGBBBECJBCBCCAPDCJJGBCBHCBCVBGBBBECICBCCHCEBBECJBAQBBFDCBDDBBABBDBDCDLEEDCBDCAGAO",
    "JQMBCBWBPCIBCBDHBBCCACDCJQDBHBCBWBJBECIBCBDHBGBBDCJBCMMBCB1YBCBEFDHECJKFBCBRDXBIBACGDAEFBABH",
    "GJCBN2FFOBJ1NBBABEBXBABWCEBABGBJCD1GAXBGJLABABAEJB1JETBRB1JJA2F2VG2ZC1LBAFAC1QBcUBDCGBABDC1O",
    "BDC1GBDCGBABDCOB2EBDC2OCC1GPQ3HCFDnVCQBZF2WDKHVJVLTMMBCBBM3FDAEBCJ1HCBKG3KH1QF2RK1EBLELK1NCE",
    "L1REZGJ1M1BE2KB1CCKGJNAI1E1X2YDJRIM4LM2DIJD1WCKF1QCCQCB1MFkNCFC1LCFCHBABABAB1EC2ABGBADCBGDDC",
    "FEMFCBGPB1XBTA1CANAQM1Z1GRAEACJBADEGABABABDBKCDFEEAR1OvH1Z1xU8UGIM1LBAFAC2DHAPXJGBGBGBGBGBGB",
    "GBGB1F1VAiBCZOBECEE3HCBCCB3LBDF1QB3PR1F1WPjS71N2MnoE2P1TCaID1BU1YBJB4K1LIC3YC2OCBBABHV2BEAT1",
    "ZM2RKJGXDAB1WC1JM1CD2MOKG1EB2CJNCJGWD2UYCCPCEKFCFCFJGBGB1QBNG4SBBCJGbxRMWE1W91CeBC4B1MGMEFLB",
    "MBEBABBBBB4D1HdYS2LC2B1OLEPQPDBYC1GEB5ETJHZEABZL3KDFCFCFCC1JLBZBSBBBOCN1I4S2R2A5GA5A1CD1WPA1",
    "F1FN1DF1QF1DC1JEHBE1Q6BCJG1JE1JE1NI1ZMKBOBGBBBKBOBGBBD1ZMbYJVKHYFB1PBI2RFCAB1RBBDACWKWJ1E2NS",
    "BBKVKZ2S2DGB2MDBBFHBCB1CCCEA1G1CD1C1JHB1DZ2BKVKSNR4G2U2D1YN1YN1NIJG1LDEBW9Q1PBBDBQC2D1GKAI1G",
    "1FV1QU1BWJ2S1FPJ2HHANYHJG2ABJEDI1JCAJ2QEDBMBA1JRB1KGD2KGBABDBOBJH2GFJGDBHCBCVBGBBBEBJCBCCCAG",
    "AFGCGDELJBACAB1LBJBACABDBHNB1D2WFJED1E2RBAIJ6K2BCIXF1I2MDALJ1M2EHJGT1C1ACOEJGG7D2G3X2VVHCACH",
    "BBB1DBBCIMJ2SHC1TCHBB1B2KIAI2VDAS2U7R1GPJGIB1SBIPJY1DCVBN2VGBBB1RDABBBIIJGFBBB1KBBBFHJbYWJQB",
    "1ODENK3HA3BzL3Y4GR7N2tK3SP15FQVK49QFmK7bD2F1uSlWH1EBJG3ABJG1DCEL2CJDMJJUFSgQ1SDJ7Q2L4Y2WE2EH",
    "Q2MBBBLBO6jZI1bP1PJ9jRDBGBBBbEPA1DCCAODIfF2gU4CFMDIHJDB4gRJjY1TCWkWEDFIHCG1ED5SChB3GB2SBBCAC",
    "BCDBLBABGB2MBDCHBGB1BBDBEBADGBdBCYBYB1EBYB1EBYB1EBYB1EBYBHC1XjS2CE1XIAOAWEBO16M1EGF8FGBQCGBB",
    "BEF2J1HA4I1SDNCJEAcJ1ER2FiC1P8G1QiRGBDBBBOB7OLG1P2XEJ19UDB1ABBBACABJBDBABAGAEABABABCBBBACABA",
    "BABABABBBACDBGBDBDBABJBQFCBEBQoEZGZGZ2uKJ13Q19nB1G4fTG8NC65PO7zKPnX2mWkV1lY59YF4hFl4pG9F"])

end Tinct.Unicode
