import Tinct.CharSet

/-!
# Classes of text segmentation

The classes by which text is cut into grapheme clusters, words and sentences.
-/

namespace Tinct.Unicode

/-- The classes of grapheme cluster boundaries. -/
def graphemeClusterBreaks : List (List String × CharSet) := [
  (["cn", "control"], .ofSorted <| CharSet.unpack 0 [
    "AJBBBR3R1GNA1hMA4wRA26QACBYG1XP1ovJA9GLeaAP11aUD5oXHnoxL1F3S4X9G3uL"]),
  (["cr"], .ofSorted <| CharSet.unpack 0 [
    "NA"]),
  (["ex", "extend"], .ofSorted <| CharSet.unpack 0 [
    "tO4HaPGaD1SBABBBBBA2UK1WUQA3XGCFCBBD1JA1E1A3NK2GIJAYDBIBCBE1RC2HI1QXB1F2DABAEHEADGKB1DA2GABA",
    "CDIAJAKB1AACB2FAEBEBCCDA1EBDALB2FAEEBBEAUBWFBA2GABBBDIAHCKB1EA2HABAMAJA1OADA2DABCFCBDHBLB1DA",
    "2GACBBADCBDHBLB1CB2FBBACDIAJAKB1DA2UAEACCBAIA3DACGMH3UACILG2VB1BABABA2DNBEBBFKB1JJA3YDBFBBCB",
    "ZBECQDNACBGAPArBC10KD1CC1DB1EB2MBBGIACKJA1TCBA4NB1IA4OCEBJAGC8LBCA2GABGBABACHGJCA1W1E1XD1WJE",
    "C1MIMB1GDCF2EABBDABE2EHCB5WCBMBGEAGADB7Q2LkEA7N1G3aCC5LA3S1FlIF4BBw8EDBJ1GB3CBaMADAEAZBFA5VB",
    "1ARNA1MHZKBA1SC1WACDCBCA1KA2PFCBCBMAIA1VA1ZABCCBFBBA1QBIA9EACAEAlnSAsJPQPeCBnHA8SA5TE1sGCBBF",
    "D1OCEA6JBmBD2NEcFB3BD2SK1XD4TA2CO1PACBKC1XDCBHA2JC1KEBH2KAMB2AIBAIDCA3RCCDGACA6BADHVB2FBBABA",
    "MAJAOGDE2PACFBACABCECBAOB3HHCCBAXA3DACFBACABBBB9BACDGBBB1BB3HHCABB4CABACH3XABACDBE9ZIBB9LAKD",
    "EA5ODCBEA1GJ1OFCDIAJFCC1UMBBfQGBFBA3EVCGBBBB4SFDABBBGBA2UBDABAdJBLB2AEFCXA5pTAGOc8YLDC2oAE2H",
    "G14IA2LD3DALBkyXB50Z1TCWkWEDFIHCG1ED5SC24D2CE1XIAOAWEBO1gIGBQCGBBBE3WA6EGeLA2JDjOD9UBsIG4FG2",
    "xGEnfiU3R4Y9F"]),
  (["l"], .ofSorted <| CharSet.unpack 0 [
    "4nK3R15kQ1C"]),
  (["lf"], .ofSorted <| CharSet.unpack 0 [
    "KA"]),
  (["lv"], .ofSorted <| CharSet.unpack 0 [
    "1b1OA1BA1BA1BA1BA1BA1BA1BA1BA1BA1BA1BA1BA1BA1BA1BA1BA1BA1BA1BA1BA1BA1BA1BA1BA1BA1BA1BA1BA1BA",
    "1BA1BA1BA1BA1BA1BA1BA1BA1BA1BA1BA1BA1BA1BA1BA1BA1BA1BA1BA1BA1BA1BA1BA1BA1BA1BA1BA1BA1BA1BA1B",
    "A1BA1BA1BA1BA1BA1BA1BA1BA1BA1BA1BA1BA1BA1BA1BA1BA1BA1BA1BA1BA1BA1BA1BA1BA1BA1BA1BA1BA1BA1BA1",
    "BA1BA1BA1BA1BA1BA1BA1BA1BA1BA1BA1BA1BA1BA1BA1BA1BA1BA1BA1BA1BA1BA1BA1BA1BA1BA1BA1BA1BA1BA1BA",
    "1BA1BA1BA1BA1BA1BA1BA1BA1BA1BA1BA1BA1BA1BA1BA1BA1BA1BA1BA1BA1BA1BA1BA1BA1BA1BA1BA1BA1BA1BA1B",
    "A1BA1BA1BA1BA1BA1BA1BA1BA1BA1BA1BA1BA1BA1BA1BA1BA1BA1BA1BA1BA1BA1BA1BA1BA1BA1BA1BA1BA1BA1BA1",
    "BA1BA1BA1BA1BA1BA1BA1BA1BA1BA1BA1BA1BA1BA1BA1BA1BA1BA1BA1BA1BA1BA1BA1BA1BA1BA1BA1BA1BA1BA1BA",
    "1BA1BA1BA1BA1BA1BA1BA1BA1BA1BA1BA1BA1BA1BA1BA1BA1BA1BA1BA1BA1BA1BA1BA1BA1BA1BA1BA1BA1BA1BA1B",
    "A1BA1BA1BA1BA1BA1BA1BA1BA1BA1BA1BA1BA1BA1BA1BA1BA1BA1BA1BA1BA1BA1BA1BA1BA1BA1BA1BA1BA1BA1BA1",
    "BA1BA1BA1BA1BA1BA1BA1BA1BA1BA1BA1BA1BA1BA1BA1BA1BA1BA1BA1BA1BA1BA1BA1BA1BA1BA1BA1BA1BA1BA1BA",
    "1BA1BA1BA1BA1BA1BA1BA1BA1BA1BA1BA1BA1BA1BA1BA1BA1BA1BA1BA1BA1BA1BA1BA1BA1BA1BA1BA1BA1BA1BA1B",
    "A1BA1BA1BA1BA1BA1BA1BA1BA1BA1BA1BA1BA1BA1BA1BA1BA1BA1BA1BA1BA1BA1BA1BA1BA1BA1BA1BA1BA1BA1BA1",
    "BA1BA1BA1BA1BA1BA1BA1BA1BA1BA1BA1BA1BA1BA1BA1BA1BA1BA1BA1BA1BA1BA1BA1BA1BA1BA1BA1BA1BA1BA1BA",
    "1BA"]),
  (["lvt"], .ofSorted <| CharSet.unpack 0 [
    "1b1P1AB1AB1AB1AB1AB1AB1AB1AB1AB1AB1AB1AB1AB1AB1AB1AB1AB1AB1AB1AB1AB1AB1AB1AB1AB1AB1AB1AB1AB1",
    "AB1AB1AB1AB1AB1AB1AB1AB1AB1AB1AB1AB1AB1AB1AB1AB1AB1AB1AB1AB1AB1AB1AB1AB1AB1AB1AB1AB1AB1AB1AB",
    "1AB1AB1AB1AB1AB1AB1AB1AB1AB1AB1AB1AB1AB1AB1AB1AB1AB1AB1AB1AB1AB1AB1AB1AB1AB1AB1AB1AB1AB1AB1A",
    "B1AB1AB1AB1AB1AB1AB1AB1AB1AB1AB1AB1AB1AB1AB1AB1AB1AB1AB1AB1AB1AB1AB1AB1AB1AB1AB1AB1AB1AB1AB1",
    "AB1AB1AB1AB1AB1AB1AB1AB1AB1AB1AB1AB1AB1AB1AB1AB1AB1AB1AB1AB1AB1AB1AB1AB1AB1AB1AB1AB1AB1AB1AB",
    "1AB1AB1AB1AB1AB1AB1AB1AB1AB1AB1AB1AB1AB1AB1AB1AB1AB1AB1AB1AB1AB1AB1AB1AB1AB1AB1AB1AB1AB1AB1A",
    "B1AB1AB1AB1AB1AB1AB1AB1AB1AB1AB1AB1AB1AB1AB1AB1AB1AB1AB1AB1AB1AB1AB1AB1AB1AB1AB1AB1AB1AB1AB1",
    "AB1AB1AB1AB1AB1AB1AB1AB1AB1AB1AB1AB1AB1AB1AB1AB1AB1AB1AB1AB1AB1AB1AB1AB1AB1AB1AB1AB1AB1AB1AB",
    "1AB1AB1AB1AB1AB1AB1AB1AB1AB1AB1AB1AB1AB1AB1AB1AB1AB1AB1AB1AB1AB1AB1AB1AB1AB1AB1AB1AB1AB1AB1A",
    "B1AB1AB1AB1AB1AB1AB1AB1AB1AB1AB1AB1AB1AB1AB1AB1AB1AB1AB1AB1AB1AB1AB1AB1AB1AB1AB1AB1AB1AB1AB1",
    "AB1AB1AB1AB1AB1AB1AB1AB1AB1AB1AB1AB1AB1AB1AB1AB1AB1AB1AB1AB1AB1AB1AB1AB1AB1AB1AB1AB1AB1AB1AB",
    "1AB1AB1AB1AB1AB1AB1AB1AB1AB1AB1AB1AB1AB1AB1AB1AB1AB1AB1AB1AB1AB1AB1AB1AB1AB1AB1AB1AB1AB1AB1A",
    "B1AB1AB1AB1AB1AB1AB1AB1AB1AB1AB1AB1AB1AB1AB1AB1AB1AB1AB1AB1AB1AB1AB1AB1AB1AB1AB1AB1AB1AB1AB1",
    "AB1A"]),
  (["pp", "prepend"], .ofSorted <| CharSet.unpack 0 [
    "1nCF8HA1XAeUB3CA17NA1yyKAPA9KBkFA1hLABA9OA2VFqYAhBA"]),
  (["ri", "regionalindicator"], .ofSorted <| CharSet.unpack 0 [
    "3s6KZ"]),
  (["sm", "spacingmark"], .ofSorted <| CharSet.unpack 0 [
    "2gTA2DACCIDBB1YB2HBGBCB2CA2GC2OA2GCIABB2BB2IAGBCB4KABBDCBC2AC2JD2JB2GACABB1UAOB2HBFCBC2BB2YB",
    "GGTB2LA4XA5IB2LA6VAJBZB1SA1yVAHHBBdIDCCEBBF8QB2GABAVF5PA2FD2MA1EAEB2LACCBA2BHIB6PAVA122HBCA3",
    "KB1YP5MA1WA1WBEBCB4HBCBYA6BACBFA9DBBBBBBArdJABA4XA1TCEB4LAYB2HA1WCJAOA3PCDB6QC1FB2HABDCBCBVB",
    "3HBPABB3ZCIBDA4DBGABBBACA9EBGDCA4JCIBBA4FABB4GAHAaBCJA9OEBBHABA5MCIDEA3GA1DB2KAfRAOA4CAHACA8",
    "FEEBBAdMBMA1WBIBi1AC3vG2C"]),
  (["t"], .ofSorted <| CharSet.unpack 0 [
    "4tW3J1i3N1W"]),
  (["v"], .ofSorted <| CharSet.unpack 0 [
    "4rC2T1i5WW14xCADD"]),
  (["zwj"], .ofSorted <| CharSet.unpack 0 [
    "8rPA"])]

/-- The classes of word boundaries. -/
def wordBreaks : List (List String × CharSet) := [
  (["cr"], .ofSorted <| CharSet.unpack 0 [
    "NA"]),
  (["dq", "doublequote"], .ofSorted <| CharSet.unpack 0 [
    "1IA"]),
  (["ex", "extendnumlet"], .ofSorted <| CharSet.unpack 0 [
    "3RA8pFAPBTA1ooOBYC9FA"]),
  (["extend"], .ofSorted <| CharSet.unpack 0 [
    "tO4HaPGaD1SBABBBBBA2UK1WUQA3XGCFCBBD1JA1E1A3NK2GIJAYDBIBCBE1RC2HI1QXB1G2CCBRBGKB1DC2EABGCBCC",
    "JAKB1AACC2EABEEBCCDA1EBDALC2EABHBCBCUBWFBC2EABGCBCCHCKB1EA2HEDCBDJA1OE2DABGBCBDHBLB1DC2EABGB",
    "CBDHBLBPAMD2DBBGBCBDJAKB1DC2SAEFBABHSB2JACGMH3UACILG2VB1BABABAEB1XTBBFKB1JJA3WTXDECBCCGDDNLB",
    "AKDrBC10KD1CC1DB1EB2M1FJA1TCBA4NB1IA4OLEL8LE2FJB1CCA1W1E1XE1VQ1MIMC1EM2EN1WT5WCBUEAGACC7Q2Lk",
    "EA7N1G3aCC5LA3S1FlIF4BBw8EDBJ1GB3CBaMADAEAXEEA3FB1YR1ARNA1MHZM1SD1VN1KA2PNMAIB1TC1YABCCBFBBA",
    "1PEFB9CHBBlnSAsJPQPeCBnHA8SA5TE1sGCBBFD1OCEA6JBmBD2NEcFB3BD2SK1XD4SC2BO1PACBKD1TKHA2JC1KNQB1",
    "SAMC1WNIDBB3OLGACA6BLVD2DBBGCBCCJAKBCGDE2PIBACABDBEBAOB3ERXA3DT9BGCI1BB3EQ4CM3XO9WO9LFBBCDBA",
    "BB5LGCGDA1CJ1OGBDIAJK1UPfPHBH3EVBN4SFDABBBGBA2OEBBBEdJDJBBA1WGDEXA5pTAGOc8YR2oAE2HG14IAB2CHD",
    "3DALBkyXB50Z1TCWkWEDFIHCG1ED5SC24D2CE1XIAOAWEBO1gIGBQCGBBBE3WA6EGeLA2JDjOD9UBsIG4FG2xGEnfiU3",
    "R4Y9F"]),
  (["fo", "format"], .ofSorted <| CharSet.unpack 0 [
    "6RA1hMA4wRA26TB1AE1XEBJ1ovJA9PCeaAP11aUD5oXHnoxMA"]),
  (["hl", "hebrewletter"], .ofSorted <| CharSet.unpack 0 [
    "1lG1AED1v1YABJBMBEBABBBBBJ"]),
  (["ka", "katakana"], .ofSorted <| CharSet.unpack 0 [
    "d6NE3XBD3MBD9GP8A1UB3J1jtE2D1c8CDBGBBBAbBC1YAOD"]),
  (["le", "aletter"], .ofSorted <| CharSet.unpack 0 [
    "2NZGZ1VAKAEAFWB1EBiLG1H4IEBBCDBAGABCBABTB3EB5II6JB1LCDBAB1OBA4AA1S1Q1JBB3UBAPBHBKCCAPBB1D1D3",
    "KLAY1GJBEAFVEAJADAXYHKFXBFR1P2G2BDASAHJPPEHCBCVBGBADDDAQANBBCOBKAIFEBCVBGBBBBBB1FDBATCQIBCBV",
    "BGBBBEDASAPBXALHCBCVBGBBBEDA1EBBCPARABFDCBDDBBABBDBDCDLWA2AHBCBWBPDA1ACCACB1EAEHBCBWBJBEDA1F",
    "BBBPBRIBCB1OCAQAFCICYFFRDXBIBACGcBA2LHB1J1BEaP1LBAFAC1QBcUBDCGBABDC1OBDC1GBDCGBABDCOB2EBDC2O",
    "1LPQ3HCFDnVCQBZF2WDKHRNSOROMBC6T3KHEC1HBAF2RK1E8RW9E1URH2C1DNBK1R1A1J1PCK1JCKF1QCC1PDBFBBDAF",
    "7J2MaRCFC1LCFCHBABABAB1EC2ABGBADCBGDDCFEMFCBG4MANAQM3XAEACJBADEGABABABDBKCDFEEAR1OvH1Z1xU8UG",
    "DDBM1LBAFAC2DHAQWJGBGBGBGBGBGBGBG3CAiBA2BB7S1QB3PR1Fu5O18U2P1TCaIDPKBU1UQ1EC3BY7PCBBABHVPBCB",
    "DBW1D1ZO1X2KFDABBL1BKWZ1CH1U1CA1W1OXCBH5SKHCMFCFCFJGBGB2FG4K1DbxRMWE1W9kUGME2E3T1HdYS2LC2B1O",
    "L4MEB5E1KZGZ2R1EDFCFCFCC1JLBZBSBBBOCN1I4S2R2AaH1CD1W1V1FN1DF1LK1DC1JEHBE1Q6BS1JE1JE1NI1ZMKBO",
    "BGBBBKBOBGBBD1ZMbYJVKHYFB1PBI2RFCAB1RBBDACWKWJ1E2NSBBKVKZ2S2DGB2MAPDBCB1C1Q1CD1C1JHB1B1B2BKV",
    "KSNR4G2U2D1YN1YN1J1M1BJW9Q1PGBQC2H1CKAIV1QR1UU1BWM2A2FBCAN1S1GY1A1J1DACAI1IDAM1VODVABA1JRBYT",
    "B2LGBABDBOBJH1U1MHCBCVBGBBBEDASAME1EJBACAB1LBAZABA1S2ASDUC1E1VUBBA7C1U1PD1K1VUA2H1QNAcP1R4M2",
    "L1FHCACHBBBXPABA3QHC1MQABA1CAK1NHAVAL1TTAS2U7R1G1FIB1KRA1X1D4IGBBB1LVAZFBBB1FOAcPSPABMB1H4UA",
    "3BzL3Y4GR7N2tK3SP15FRFZ49QFmK7bD1D1vUlWH1ER3AR1DS1VQD1FUFSgQ1S8D2L4Y2WFA2OM2MBBAktK4CFMDIHJ6",
    "eK3GB2SBBCACBCDBLBABGB2MBDCHBGB1BBDBEBADGBdBCYBYB1EBYB1EBYB1EBYB1EBYBH1yY1EGFaB2J5Q1SKGQAcJ1",
    "DS1RiQ1B8U1DCAjBGBDBBBOB7O2H2PHA1aIDB1ABBBACABJBDBABAGAEABABABCBBBACABABABABABBBACDBGBDBDBAB",
    "JBQFCBEBQoEZGZGZ"]),
  (["lf"], .ofSorted <| CharSet.unpack 0 [
    "KA"]),
  (["mb", "midnumlet"], .ofSorted <| CharSet.unpack 0 [
    "1UA8qFBKA1orPA6YAGA"]),
  (["ml", "midletter"], .ofSorted <| CharSet.unpack 0 [
    "2GA4UArRAiDA5SA75YA1opBA2NA7OA"]),
  (["mn", "midnum"], .ofSorted <| CharSet.unpack 0 [
    "1SAOAwCAkCA5AB3QAfFA6nFA1oqHADA7BAOA"]),
  (["nl", "newline"], .ofSorted <| CharSet.unpack 0 [
    "LB4QA8nMB"]),
  (["nu", "numeric"], .ofSorted <| CharSet.unpack 0 [
    "1WJ1kWF3MJBA4JASJ7QJ7QB3CA5BJ4OJ4OJ4OJ4OJ4OJ4OJ4OJ4OJ4OJ3SJ4OJ2SJaSJ2SJ1zQJ1MJbOJ4YK6JJGJ7AJ",
    "3IJ5EJGJ11oOJqCJ1MJ7QJWJ3IJfQJmqCJ1iKJ2bYJGJuQJ2ZAPA1IJ2IJ5OJaSJdEJ4OJeKJ3YJGT2YJgGJ3YJpMJ3I",
    "J9MJ2SJgGJi0GJ2iCJ3IJ5EJkOJq3YJ2yQ1X2jCJgGJjIJ9NJwVJ53AJ"]),
  (["ri", "regionalindicator"], .ofSorted <| CharSet.unpack 0 [
    "3s6KZ"]),
  (["sq", "singlequote"], .ofSorted <| CharSet.unpack 0 [
    "1NA"]),
  (["wsegspace"], .ofSorted <| CharSet.unpack 0 [
    "1GA64HA2lNGBC3GA49WA"]),
  (["zwj"], .ofSorted <| CharSet.unpack 0 [
    "8rPA"])]

/-- The classes of sentence boundaries. -/
def sentenceBreaks : List (List String × CharSet) := [
  (["at", "aterm"], .ofSorted <| CharSet.unpack 0 [
    "1UA8qRA1orPA7FA"]),
  (["cl", "close"], .ofSorted <| CharSet.unpack 0 [
    "1IAEC1XABA1DABA1TAPA3ySD20NB2lJHZBKB2CBOBoJD1DB15GFHN3BB1FJfNV2LD1GB13MNOBCJYASHgLJCHBC1k3QB",
    "8HB1CPCBQF6NB1XABA1DABABBBB1vkSC"]),
  (["cr"], .ofSorted <| CharSet.unpack 0 [
    "NA"]),
  (["ex", "extend"], .ofSorted <| CharSet.unpack 0 [
    "tO4HaPGaD1SBABBBBBA2UK1WUQA3XGCFCBBD1JA1E1A3NK2GIJAYDBIBCBE1RC2HI1QXB1G2CCBRBGKB1DC2EABGCBCC",
    "JAKB1AACC2EABEEBCCDA1EBDALC2EABHBCBCUBWFBC2EABGCBCCHCKB1EA2HEDCBDJA1OE2DABGBCBDHBLB1DC2EABGB",
    "CBDHBLBPAMD2DBBGBCBDJAKB1DC2SAEFBABHSB2JACGMH3UACILG2VB1BABABAEB1XTBBFKB1JJA3WTXDECBCCGDDNLB",
    "AKDrBC10KD1CC1DB1EB2M1FJA1TCBA4NB1IA4OLEL8LE2FJB1CCA1W1E1XE1VQ1MIMC1EM2EN1WT5WCBUEAGACC7Q2Lk",
    "EB7M1G3aCC5LA3S1FlIF4BBw8EDBJ1GB3CBaMADAEAXEEA3FB1YR1ARNA1MHZM1SD1VN1KA2PNMAIB1TC1YABCCBFBBA",
    "1PEFB9CHBBlnSAsJPQPeCBnHA8SA5TE1sGCBBFD1OCEA6JBmBD2NEcFB3BD2SK1XD4SC2BO1PACBKD1TKHA2JC1KNQB1",
    "SAMC1WNIDBB3OLGACA6BLVD2DBBGCBCCJAKBCGDE2PIBACABDBEBAOB3ERXA3DT9BGCI1BB3EQ4CM3XO9WO9LFBBCDBA",
    "BB5LGCGDA1CJ1OGBDIAJK1UPfPHBH3EVBN4SFDABBBGBA2OEBBBEdJDJBBA1WGDEXA5pTAGOc8YR2oAE2HG14IAB2CHD",
    "3DALBkyXB50Z1TCWkWEDFIHCG1ED5SC24D2CE1XIAOAWEBO1gIGBQCGBBBE3WA6EGeLA2JDjOD9UBsIG4FGnigF3R4Y9",
    "F"]),
  (["fo", "format"], .ofSorted <| CharSet.unpack 0 [
    "6RA1hMA9IA4nIA26QACB1AE1XEBJ1ovJA9PCeaAP11aUD5oXHnoxMA"]),
  (["le", "oletter"], .ofSorted <| CharSet.unpack 0 [
    "hBAED8AA1KGGL1AABA5DAiQA4O1AEE1S1Q1JBB3UBAPBHBKCCAQAB1D1D3KLAY1GJBEAFVEAJADAXYHKFXBFR1P2G2BD",
    "ASAHJPPEHCBCVBGBADDDAQANBBCOBKAIFEBCVBGBBBBBB1FDBATCQIBCBVBGBBBEDASAPBXALHCBCVBGBBBEDA1EBBCP",
    "ARABFDCBDDBBABBDBDCDLWA2AHBCBWBPDA1ACCACB1EAEHBCBWBJBEDA1FBBBPBRIBCB1OCAQAFCICYFFRDXBIBACG2G",
    "1VBBMG2GBBABEBXBABJBBJACEBAVD1GA2LHB1J1BE4L1QUAQFEDDADBHCEMMA2N1QCcTBDCGBABDC1OBDC1GBDCGBABD",
    "COB2EBDC2O1LP4JnVCQBZF2WDKHRNSOROMBCP1Z1JAEA2P3KHEC1HBAF2RK1E1X1DCEL1REZ2CWJ2A3EA3P1URH2C1DN",
    "BK1R1A1J1PCK1JS1QCC1PDBFBBDA15QD2TCCD36T2DHAQWJGBGBGBGBGBGBGBG3CAiBCZIHECEE3HGCB3LBDF1QB3PR1",
    "F1WPjS71N2MnoE2P1TCaIDPKB2OAQA1G3B1NI4AAGA3ZADGBCBDBW1D1ZO1X2KFDABBL1BKWZ1CH1U1CAQEBJKEB1OXC",
    "BHUWDAD1XBADBCECABAYCCKHCMFCFCFJGBG5P1I1DbxRMWE1W91CeBC4B2PABJBMBEBABBBBB4D1HdYS2LC2B1OL4MEB",
    "5E4B2DC1EDFCFCFCC1JLBZBSBBBOCN1I4S2R2AaH1CD1W1V1FN1DF1LK1DC1JEHBE4S2Z3U1NI1Z3O1ZMbYJVKHZB4VF",
    "CAB1RBBDACWKWJ1E2NSBBKVKZ2S2DGB2MAPDBCB1C1Q1CD1C1JHB1B1B2BKVKSNR4G2U7B1J1MF1FAaM1PGBQC2H1CKA",
    "IV1QR1UU1BWM2A2FBCAN1S1GY1A1J1DACAI1IDAM1VODVABA1JRBYTB2LGBABDBOBJH1U1MHCBCVBGBBBEDASAME1EJB",
    "ACAB1LBAZABA1S2ASDUC1E1VUBBA7C1U1PD1K1VUA2H1QNA2T1A1LG7D1R8DHCACHBBBXPABA3QHC1MQABA1CAK1NHAV",
    "AL1TTAS2U7R1G1FIB1KRA1X1D4IGBBB1LVAZFBBB1FOAcPSPABMB1H4UA3BzL3Y4GR7N2tK3SP15FRFZ49QFmK7bD1D1",
    "vUlWH1ER3AR1DS1VQD1FUFSgQ1SfN2WFA2OM2MBBA1C6jZI1bP1PJ9jRDBGBBBbEPA1DCCAODIfF2gU4CFMDIHJ9fCAj",
    "H1SKGQAcJ1DS1RiQ1B8U1DCAjBGBDBBBOB7O5EA1aIDB1ABBBACABJBDBABAGAEABABABCBBBACABABABABABBBACDBG",
    "BDBDBABJBQFCBEBQ4qA19nB1G4fTG8NC65PO7zKPnX2mWkV1lY59YF4hF"]),
  (["lf"], .ofSorted <| CharSet.unpack 0 [
    "KA"]),
  (["lo", "lower"], .ofSorted <| CharSet.unpack 0 [
    "3TZ1VAKAEA1KXBHBABABABABABABABABABABABABABABABABABABABABABABABABABABABBBABABABABABABABBBABAB",
    "ABABABABABABABABABABABABABABABABABABABABACABABCCABACADBEACADCCACABABACABBBACADABACBCCGACACAB",
    "ABABABABABABABBBABABABABABABABABBCABADABABABABABABABABABABABABABABABABABABABABABABABABABABAB",
    "ABABGCACBBAEABABABAB2QB1JHB1EE5KABADACDSA1B1IBBDCBABABABABABABABABABABABEBACACB1Z1VBABABABAB",
    "ABABABABABABABABABABABABAJABABABABABABABABABABABABABABABABABABABABABABABABABABACABABABABABAB",
    "BBABABABABABABABABABABABABABABABABABABABABABABABABABABABABABABABABABABABABABABABABABABABABAB",
    "ABABA1W1O34TAtJF2bUIBA4N7J2NABABABABABABABABABABABABABABABABABABABABABABABABABABABABABABABAB",
    "ABABABABABABABABABABABABABABABABABABABABABABABABABABABABABABABABABABABABABABABABABABIBABABAB",
    "ABABABABABABABABABABABABABABABABABABABABABABABABABABABABABABABABABABABABABABABABABABABABABII",
    "FKHIHIFKHIHINCHIHIHIEBBGADCBBIDCBIHKCBB4RANAQM4FADBDA1BAEAEACBIDEA1HPEAwLZ1zQ1VBADBBABABAEAB",
    "BBHDABABABABABABABABABABABABABABABABABABABABABABABABABABABABABABABABABABABABABABABABABABABAB",
    "ABABABABABBHABAEAM1LBAFAx4DABABABABABABABABABABABABABABABABABABABABABABATABABABABABABABABABA",
    "BABABABC5DABABABABABABCBABABABABABABABABABABABABABABABABABABABABABABABABABABABABABABJBABACAB",
    "ABABABAEABACABCBABABABABABABABABABAFAFABABABABABABABAEABACADABABABABABAWCBABCvP1QBNG3BloIGME",
    "14ZZ1bH1N5G1J5ZKBOBGBBhJACCB1PBI1dL1Y4VV32O1FndW1FrsKZ1AGBR1AZ1ADBABGBK1AZ1AZ1AZ1AZ1AZ1AZ1AZ",
    "1AZ1A1B1CYBF1AYBF1AYBF1AYBF1AYBFBA1yYJBTGFaB2J2dS1H"]),
  (["nu", "numeric"], .ofSorted <| CharSet.unpack 0 [
    "1WJ1kWF3MJBB4IASJ7QJ7QB3CA5BJ4OJ4OJ4OJ4OJ4OJ4OJ4OJ4OJ4OJ3SJ4OJ2SJaSJ2SJ1zQJ1MJbOJ4YK6JJGJ7AJ",
    "3IJ5EJGJ11oOJqCJ1MJ7QJWJ3IJfQJmqCJ1iKJ2bYJGJuQJ2ZAPA1IJ2IJ5OJaSJdEJ4OJeKJ3YJGT2YJgGJ3YJpMJ3I",
    "J9MJ2SJgGJi0GJ2iCJ3IJ5EJkOJq3YJ2yQ1X2jCJgGJjIJ9NJwVJ53AJ"]),
  (["sc", "scontinue"], .ofSorted <| CharSet.unpack 0 [
    "1SBMBwCAiKA6SBiWA4dXAFA27EB4cUA1kcWBBB1CB1DBCBCAKA6MBMB2UA"]),
  (["se", "sep"], .ofSorted <| CharSet.unpack 0 [
    "5DA8nMB"]),
  (["sp"], .ofSorted <| CharSet.unpack 0 [
    "JABBTA4XA5zJA2lNK1KA1VA49WA"]),
  (["st", "sterm"], .ofSorted <| CharSet.unpack 0 [
    "1HA1DA1gBA5RC6YA1RC9MA2JABADBbHB1vWBuKAEBtTA7QB6BB1TAFAcCBdQD6GBKBCB1DC7FB2NB10UBJC3gXCbUANA",
    "WBgNAvzWAaKB8TADAeSB3IB3RA5WB5RC5OB9PAmgWACB2LB6NA1DA2NA2zWB1dDE1SD7HB4ND4XC4ZBGAQB3KBBB4EAb",
    "MB4NBeJBFO4BB9PCjXABA9RB3JBgEBqQB2WBkkBB5DA2NBLAlHBbKAlcGA86MA"]),
  (["up", "upper"], .ofSorted <| CharSet.unpack 0 [
    "2NZ3XWBG1HABABABABABABABABABABABABABABABABABABABABABABABABABABABACABABABABABABABACABABABABAB",
    "ABABABABABABABABABABABABABABABABABABBBABADBBABBBCCDBBBCDBBBBABABBBACABBBCBABBDAHBBBBBBABABAB",
    "ABABABABACABABABABABABABABACBBABCBABABABABABABABABABABABABABABABABABABABABABABABABABABABABAH",
    "BBBCABDBABABABAbDABADAIAGABCBABBBQBI1JACCDABABABABABABABABABABABAFACABBC1Y1WABABABABABABABAB",
    "ABABABABABABABABAJABABABABABABABABABABABABABABABABABABABABABABABABABABABBBABABABABABACABABAB",
    "ABABABABABABABABABABABABABABABABABABABABABABABABABABABABABABABABABABABABABABABABABABABABAC1L",
    "33D1LBAFArU3H2cLAeKABABABABABABABABABABABABABABABABABABABABABABABABABABABABABABABABABABABABA",
    "BABABABABABABABABABABABABABABABABABABABABABABABABABABABABABABABABABABABABABAJABABABABABABABA",
    "BABABABABABABABABABABABABABABABABABABABABABABABABABABABABABABABABABABABABABABABABAJHIFKHIHIF",
    "LABABABAIHYHIHIHIELELDMELEaBAEADCCCCADEGABABABDCDKBFA1APTAvMZ1yU1V1WABCCABABABDBACAICBABABAB",
    "ABABABABABABABABABABABABABABABABABABABABABABABABABABABABABABABABABABABABABABABABABABABABABAI",
    "ABAEAx6JABABABABABABABABABABABABABABABABABABABABABABATABABABABABABABABABABABABABA5FABABABABA",
    "BABADABABABABABABABABABABABABABABABABABABABABABABABABABABABABABABAKABABBBABABABAEABACABADABA",
    "BABABABABABABABABEBEBABABABABABABABDBABBDAFABABABAYAnuHZ1aZ1N5G1J6AKBOBGBB1wC1Y6BV32O1FndW1F",
    "rsQZ1AZ1AZ1AABBCACBCDBH1AZ1ABBDCHBG1BBBDBEBADG1BZ1AZ1AZ1AZ1AZ1AZ1EY1HY1HY1HY1HY1HA4pL1H27IZG",
    "ZGZ"])]

end Tinct.Unicode
