import Tinct.CharSet

/-!
# Characters of names

The letters and numbers that the names of groups are made of. The tables follow version 17.0 of
the Unicode character database.
-/

namespace Tinct.Unicode

/-- The letters of every alphabet. -/
def nameLetter : CharSet :=
  .ofSorted (⟨0x41, 0x5A⟩ :: ⟨0x61, 0x7A⟩ :: CharSet.unpack 0x80 [
    "1QAKAEAFWB1EBhPELOEHABA3IA1DRBBCDBAGABCBABTB3EB5II6JB1LCAG1O1NNBABBBBBAI1AED1DKF2DBGO3XBHEHE",
    "CKCCAQ1VN3WY1GJBEAFXCSTYHKFXBGHAI1PKLDGG2XBPBCEONSBHCBCVBGBADDDHCBCBBAIAEBBEMBKAECBFEBCVBGBB",
    "BBBBEEEBCBEAHDBARFLCBIBCBVBGBBBEDIBCBBDAPDVDECBHCBCVBGBBBEDHCBCBJBEBBENAQBBFDCBDDBBABBDBDCDL",
    "EEDCBCDAGA1OMBCBWBPDHBCBCIBBCBBCD1CDBHBCBWBJBEDHBCBCIBFCBDNCMMBCB1OCHBCBCBAFDHEWFBCBRDXBIBAC",
    "GIFBABHSBN2FFGGA1ZBBABEBXBABSBCCEBAGAOD1GA2LHB1JESEPB1J2P2CBACEQ2LKDC1LBAFAC1QBcUBDCGBABDC1O",
    "BDC1GBDCGBABDCOB2EBDC2O1LPQ3HCFDnVCQBZF2WDKHTLUMTMMBCBBM1ZCSOAEA2P3KH1QF2RK1EBLEIX1DCEL1REZ2",
    "C1BE2KCT1YAXBLC1X1ZBOBH1Z1PCDK1RBKO2CWCK1JCKF1QCC1PDBFBBDAF7JT1HLaRCFC1LCFCHBABABAB1EC2ABGBA",
    "DCBGDDCFEMFCBG4MANAQM3XAEACJBADEGABABABDBKCDFEEAR1OvH1Z1xU8UGDDBM1LBAFAC2DHAQWJGBGBGBGBGBGBG",
    "BGB1F1VAiBCZIHECEE3HGCB3LBDF1QB3PR1F1WPjS71N2MnoE2P1TCaIDPKBU1UFHD4I1NIC3YC3DUUB1GY1ZM2PBA1S",
    "FDABCK1GF1IN1CD1YBLPAQPKEB2CJNSWD2QBABAYCCPCDLFCFCFJGBGB1QBNG4SVbxRMWE1W91CeBC4B1MGMEFLBMBEB",
    "ABBBBB4D1HdYS2LC2B1OL4MEB5E1KZGZL3KDFCFCFCC1JLBZBSBBBOCN1I4S2R2AaH1CD1W1V1FN1DF1QF1DC1JEHBE1",
    "Q6BS1JE1JE1NI1ZMKBOBGBBBKBOBGBBD1ZMbYJVKHYFB1PBI2RFCAB1RBBDACWKWJ1E2NSBBKVKZGZ1M2DGB2MDBBFHB",
    "CB1C1Q1CD1C1JHB1B1B2BKVKSNR4G2U2D1YN1YN1N1I1BDAFW9Q1PBBDBQF1YCD1CKAIV1QR1UU1BWJ2R1REK2EJANYX",
    "1YRDI1IDAJ2LBDJBKABA1JRB1HCAGD2KGBABDBOBJH2EXDBHCBCVBGBBBEDHCBCBDAGAFG1CJBACAB1LBJBACABDBBDA",
    "BA1S2NBCBDUC1E2NCBBA7C2BCGZF1I2KBADA2H2BCA2T1ACNVG7D2E3Z2L1FHCACHBBB1DBBCBCD3PHC1TCFBABB1B1Y",
    "CJR2TFAS2U3ZH3K1G1FIB1SBGBA1X1DCVBN2VGBBB1RDABBBCBACBYFBBB1KBBBDBAX1RaAWJQB1ODC4HA3BzL3Y4GR7",
    "N2tK3SP15FRFZ49QFmK7bD1U1vDlWH1ER3AR1DS1VQD1FUFSgQ1S8D2L1GYCY1S2WE2EHQ2MBBAMGJ7vX1P1F3T4K9aR",
    "DBGBBBbEPA1DCCAODIfF2gU4CFMDIHJEA6eF3GB2SBBCACBCDBLBABGB2MBDCHBGB1BBDBEBADGBdBCYBYB1EBYB1EBY",
    "B1EBYB1EBYBH1yY1EGF8FGBQCGBBBEF2J1HA4I1SKGQAcJ1DS1RiQ1B8U1DCA7Z1EBVIB8QGBDBBBOB7O2H2PDADA1aI",
    "DB1ABBBACABJBDBABAGAEABABABCBBBACABABABABABBBACDBGBDBDBABJBQFCBEBQoEZGZGZ3yK19nB1G4oNC66BC7z",
    "KPnX2mWkV1lY59YF92N"])

/-- The digits and other numbers of every script. -/
def nameNumber : CharSet :=
  .ofSorted (⟨0x30, 0x39⟩ :: CharSet.unpack 0x80 [
    "1YBFACC1jLJ5EJ7QJfWJ4OJEF4EJ4OJ4OJCF4GM4LJIG3ZJ4AGHS4FJ3SJ4OJ2STaIJ2SJrRTxXC9FJGJWJbOJ4YK6JJ",
    "GJ7AJ3IJ5EJGJ14GADFGJ7Q1YCErY2H3AVoG1D1hHAtXAZIOCdFD5IJ1EHBO1GJ1NOvkAJ7GJcIF5YJ1MJ7QJWJ3IJfQ",
    "JmqCJiZ1SM2ERBdD1A1KD1DAIA5EE7UJ10GHZG1NI2XEWF6EBCPC1T2MI2AB1EC2XE4AHYH1PGcSF1WJGJaS1E6CJ1QD",
    "4IG5E1D4YJ2IJ5OJHT9RJdEJ4OJeKJ3YJGT2YLgES3PJpMJ3I1C8TJ2SJ2CJdUJ3YU15B4GgmFJ2iCJ3IJ5EJBGkGJaC",
    "WdLCpfLJ1kWTMT4EY16R1X2jCJgGJjIJ9NJrOI4YJuL2GBCBD2Y1SBO11AM2zFJ"])

end Tinct.Unicode
