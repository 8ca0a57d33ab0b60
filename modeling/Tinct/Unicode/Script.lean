import Tinct.CharSet

/-!
# Scripts

The characters of each script of the Unicode character database, version 16.0.
-/

namespace Tinct.Unicode

/-- The scripts, each under its names without spaces, dashes and capitals. -/
def scripts : List (List String × CharSet) := [
  (["adlm", "adlam"], .ofSorted <| CharSet.unpack 0 [
    "3pqU2XEJEB"]),
  (["aghb", "caucasianalbanian"], .ofSorted <| CharSet.unpack 0 [
    "1zfS1ZLA"]),
  (["ahom"], .ofSorted <| CharSet.unpack 0 [
    "24bC1ACOEW"]),
  (["arab", "arabic"], .ofSorted <| CharSet.unpack 0 [
    "1nCEBFBNBCB1FBJLZB4DB1H3C1V9G1EBBF2WB1C1u9W4KQdYC3BC2BHA1GP4IEB5E47N1E2PC2DD1ozSDB1ABBBACABJ",
    "BDBABAGAEABABABCBBBACABABABABABBBACDBGBDBDBABJBQFCBEBQ2AB"]),
  (["armi", "imperialaramaic"], .ofSorted <| CharSet.unpack 0 [
    "209WVBI"]),
  (["armn", "armenian"], .ofSorted <| CharSet.unpack 0 [
    "1fD1LC1XCC1v5JE"]),
  (["avst", "avestan"], .ofSorted <| CharSet.unpack 0 [
    "210Y2BDG"]),
  (["bali", "balinese"], .ofSorted <| CharSet.unpack 0 [
    "7dW2YB1X"]),
  (["bamu", "bamum"], .ofSorted <| CharSet.unpack 0 [
    "19kQ3J1gsQlW"]),
  (["bass", "bassavah"], .ofSorted <| CharSet.unpack 0 [
    "2r8I1DCF"]),
  (["batk", "batak"], .ofSorted <| CharSet.unpack 0 [
    "7lG1ZID"]),
  (["beng", "bengali"], .ofSorted <| CharSet.unpack 0 [
    "2lODBHCBCVBGBADDCICBCDIAEBBECY"]),
  (["bhks", "bhaiksuki"], .ofSorted <| CharSet.unpack 0 [
    "25oIIB1SBNK1C"]),
  (["bopo", "bopomofo"], .ofSorted <| CharSet.unpack 0 [
    "sSBclX1Q4I1F"]),
  (["brah", "brahmi"], .ofSorted <| CharSet.unpack 0 [
    "22eE2ZE1JJA"]),
  (["brai", "braille"], .ofSorted <| CharSet.unpack 0 [
    "axW9V"]),
  (["bugi", "buginese"], .ofSorted <| CharSet.unpack 0 [
    "74A1BCB"]),
  (["buhd", "buhid"], .ofSorted <| CharSet.unpack 0 [
    "6cYT"]),
  (["cakm", "chakma"], .ofSorted <| CharSet.unpack 0 [
    "22oA2ABR"]),
  (["cans", "canadianaboriginal"], .ofSorted <| CharSet.unpack 0 [
    "5gYoPlO2R1yhQP"]),
  (["cari", "carian"], .ofSorted <| CharSet.unpack 0 [
    "1yqM1W"]),
  (["cham"], .ofSorted <| CharSet.unpack 0 [
    "1ahW2CJNCJCD"]),
  (["cher", "cherokee"], .ofSorted <| CharSet.unpack 0 [
    "5dG3HCF15fE3B"]),
  (["chrs", "chorasmian"], .ofSorted <| CharSet.unpack 0 [
    "22bC1B"]),
  (["copt", "qaac", "coptic"], .ofSorted <| CharSet.unpack 0 [
    "12GNb3K4LFG"]),
  (["cpmn", "cyprominoan"], .ofSorted <| CharSet.unpack 0 [
    "2b0Y3U"]),
  (["cprt", "cypriot"], .ofSorted <| CharSet.unpack 0 [
    "207KFCAB1RBBDACA"]),
  (["cyrl", "cyrillic"], .ofSorted <| CharSet.unpack 0 [
    "13K5CC6M6dOK6EA2YA4hN1FwwA3RnyCB1ptG2J1HA"]),
  (["deva", "devanagari"], .ofSorted <| CharSet.unpack 0 [
    "2gQ3CEOCZ17lG1Fv6MJ"]),
  (["diak", "divesakuru"], .ofSorted <| CharSet.unpack 0 [
    "24uUGCACHBBB1DBBCLJJ"]),
  (["dogr", "dogra"], .ofSorted <| CharSet.unpack 0 [
    "24kY2H"]),
  (["dsrt", "deseret"], .ofSorted <| CharSet.unpack 0 [
    "1z4A3B"]),
  (["dupl", "duployan"], .ofSorted <| CharSet.unpack 0 [
    "3dfS4CFMDIHJCD"]),
  (["egyp", "egyptianhieroglyphs"], .ofSorted <| CharSet.unpack 0 [
    "2b5G16RK49Q"]),
  (["elba", "elbasan"], .ofSorted <| CharSet.unpack 0 [
    "1zdW1N"]),
  (["elym", "elymaic"], .ofSorted <| CharSet.unpack 0 [
    "22cYW"]),
  (["ethi", "ethiopic"], .ofSorted <| CharSet.unpack 0 [
    "4xG2UBDCGBABDC1OBDC1GBDCGBABDCOB2EBDC2OC1FDZ73AWJGBGBGBGBGBGBGBGy8CFCFCFJGBG2emFGBDBBBO"]),
  (["gara", "garay"], .ofSorted <| CharSet.unpack 0 [
    "21nC1LD1CIB"]),
  (["geor", "georgian"], .ofSorted <| CharSet.unpack 0 [
    "4jS1LBAFAC1QBD35W1QCC4gA1LBAFA"]),
  (["glag", "glagolitic"], .ofSorted <| CharSet.unpack 0 [
    "c1G3R3b5GGBQCGBBBE"]),
  (["gong", "gunjalagondi"], .ofSorted <| CharSet.unpack 0 [
    "261WFBBB1KBBBFHJ"]),
  (["gonm", "masaramgondi"], .ofSorted <| CharSet.unpack 0 [
    "25yEGBBB1RDABBBIIJ"]),
  (["goth", "gothic"], .ofSorted <| CharSet.unpack 0 [
    "1ywA1A"]),
  (["gran", "grantha"], .ofSorted <| CharSet.unpack 0 [
    "237SDBHCBCVBGBBBECICBCCCAGAFGCGDE"]),
  (["grek", "greek"], .ofSorted <| CharSet.unpack 0 [
    "xWDBCCDBAEABABCBABTB2KOP6vQE1YEEE3GAcIVCFC1LCFCHBABABAB1EC2ABOBNCFBSCCBIbJA11tEAnhI3ARA1kzR2",
    "R"]),
  (["gujr", "gujarati"], .ofSorted <| CharSet.unpack 0 [
    "2vLCBIBCBVBGBBBECJBCBCCAPDCLHG"]),
  (["gukh", "gurungkhema"], .ofSorted <| CharSet.unpack 0 [
    "2ojS2F"]),
  (["guru", "gurmukhi"], .ofSorted <| CharSet.unpack 0 [
    "2qNCBFEBCVBGBBBBBBCABEEBCCDAHDBAHQ"]),
  (["han", "hani"], .ofSorted <| CharSet.unpack 0 [
    "cpWZB3KM8F1VABAZIOD11C71N2MmfJocIeBC4Bw0IBMB13eK19nB1G4fTG8NC65PO7zKPnX2mWkV1lY59YF4hF"]),
  (["hang", "hangul"], .ofSorted <| CharSet.unpack 0 [
    "4nK9V89EB9X3P4J1E2N1EwiN1CoTbxRMWE1WauI1EDFCFCFCC"]),
  (["hano", "hanunoo"], .ofSorted <| CharSet.unpack 0 [
    "6bSU"]),
  (["hatr", "hatran"], .ofSorted <| CharSet.unpack 0 [
    "20gASBBFE"]),
  (["hebr", "hebrew"], .ofSorted <| CharSet.unpack 0 [
    "1iV2CI1AEF1v1WZBEBABBBBBJ"]),
  (["hira", "hiragana"], .ofSorted <| CharSet.unpack 0 [
    "d7D3HGC2wuVbASA1DChoVA"]),
  (["hluw", "anatolianhieroglyphs"], .ofSorted <| CharSet.unpack 0 [
    "2gmEmK"]),
  (["hmng", "pahawhhmong"], .ofSorted <| CharSet.unpack 0 [
    "2raE2RKJBGBUFS"]),
  (["hmnp", "nyiakengpuachuehmong"], .ofSorted <| CharSet.unpack 0 [
    "3nkA1SDNCJEB"]),
  (["hung", "oldhungarian"], .ofSorted <| CharSet.unpack 0 [
    "21fS1YN1YHF"]),
  (["ital", "olditalic"], .ofSorted <| CharSet.unpack 0 [
    "1yuE1JJC"]),
  (["java", "javanese"], .ofSorted <| CharSet.unpack 0 [
    "1acY2ZCJEB"]),
  (["kali", "kayahli"], .ofSorted <| CharSet.unpack 0 [
    "1a8A1TBA"]),
  (["kana", "katakana"], .ofSorted <| CharSet.unpack 0 [
    "daV3LCC9GP8A1UB3J1jtEJB1S1c8CDBGBBBAbBC1YAOD"]),
  (["kawi"], .ofSorted <| CharSet.unpack 0 [
    "26hWQB1OD1C"]),
  (["khar", "kharoshthi"], .ofSorted <| CharSet.unpack 0 [
    "20rCDBBFHBCB1CCCEJHI"]),
  (["khmr", "khmer"], .ofSorted <| CharSet.unpack 0 [
    "6fK3PCJGJiS1F"]),
  (["khoj", "khojki"], .ofSorted <| CharSet.unpack 0 [
    "22xWRB1U"]),
  (["kits", "khitansmallscript"], .ofSorted <| CharSet.unpack 0 [
    "2smIA7eXiB1PA"]),
  (["knda", "kannada"], .ofSorted <| CharSet.unpack 0 [
    "3fCMBCBWBJBECIBCBDHBGBBDCJBC"]),
  (["krai", "kiratrai"], .ofSorted <| CharSet.unpack 0 [
    "2rwI2F"]),
  (["kthi", "kaithi"], .ofSorted <| CharSet.unpack 0 [
    "22jC2OKA"]),
  (["lana", "taitham"], .ofSorted <| CharSet.unpack 0 [
    "75G2KB1CCKGJGN"]),
  (["lao", "laoo"], .ofSorted <| CharSet.unpack 0 [
    "3yVBBABEBXBABWCEBABGBJCD"]),
  (["latn", "latin"], .ofSorted <| CharSet.unpack 0 [
    "2NZGZ1VAPAFWB1EBhG1NE75B1LG1WFDFMB2R2N9VeFANAQM5LBGA1BAR1O2yT1FxjM3XD2OCBBABHVNvK1QBIBDlrQG1",
    "4KZGZ28FFB1PBI1mvP1EGF"]),
  (["lepc", "lepcha"], .ofSorted <| CharSet.unpack 0 [
    "7nS2DDODC"]),
  (["limb", "limbu"], .ofSorted <| CharSet.unpack 0 [
    "6uE1EBLELEADL"]),
  (["lina", "lineara"], .ofSorted <| CharSet.unpack 0 [
    "1znSbYJVKH"]),
  (["linb", "linearb"], .ofSorted <| CharSet.unpack 0 [
    "1y0QLBZBSBBBOCN1I4S"]),
  (["lisu"], .ofSorted <| CharSet.unpack 0 [
    "192U1VxkAA"]),
  (["lyci", "lycian"], .ofSorted <| CharSet.unpack 0 [
    "1ypG1C"]),
  (["lydi", "lydian"], .ofSorted <| CharSet.unpack 0 [
    "20iMZFA"]),
  (["mahj", "mahajani"], .ofSorted <| CharSet.unpack 0 [
    "22rC1M"]),
  (["maka", "makasar"], .ofSorted <| CharSet.unpack 0 [
    "26gQY"]),
  (["mand", "mandaic"], .ofSorted <| CharSet.unpack 0 [
    "29G1BCA"]),
  (["mani", "manichaean"], .ofSorted <| CharSet.unpack 0 [
    "20yM1MEL"]),
  (["marc", "marchen"], .ofSorted <| CharSet.unpack 0 [
    "25sQ1FCVBN"]),
  (["medf", "medefaidrin"], .ofSorted <| CharSet.unpack 0 [
    "2s6E3M"]),
  (["mend", "mendekikakui"], .ofSorted <| CharSet.unpack 0 [
    "3pgY7OCP"]),
  (["merc", "meroiticcursive"], .ofSorted <| CharSet.unpack 0 [
    "20nKXETC1T"]),
  (["mero", "meroitichieroglyphs"], .ofSorted <| CharSet.unpack 0 [
    "20mE1F"]),
  (["miao", "plrd"], .ofSorted <| CharSet.unpack 0 [
    "2sdO2WE2EHQ"]),
  (["mlym", "malayalam"], .ofSorted <| CharSet.unpack 0 [
    "3kAMBCB1YBCBFEPCZ"]),
  (["modi"], .ofSorted <| CharSet.unpack 0 [
    "241G2QLJ"]),
  (["mong", "mongolian"], .ofSorted <| CharSet.unpack 0 [
    "6kIBCABTG3KH1Q1xeBM"]),
  (["mro", "mroo"], .ofSorted <| CharSet.unpack 0 [
    "2r2U1EBJEB"]),
  (["mtei", "meeteimayek"], .ofSorted <| CharSet.unpack 0 [
    "1aqMW7T1TCJ"]),
  (["mult", "multani"], .ofSorted <| CharSet.unpack 0 [
    "232UGBABDBOBK"]),
  (["mymr", "myanmar"], .ofSorted <| CharSet.unpack 0 [
    "4dO6D15wY1E3T1FtmMT"]),
  (["nagm", "nagmundari"], .ofSorted <| CharSet.unpack 0 [
    "3olO1P"]),
  (["nand", "nandinagari"], .ofSorted <| CharSet.unpack 0 [
    "250YHC1TCK"]),
  (["narb", "oldnortharabian"], .ofSorted <| CharSet.unpack 0 [
    "20wA1F"]),
  (["nbat", "nabataean"], .ofSorted <| CharSet.unpack 0 [
    "20cI1EII"]),
  (["newa"], .ofSorted <| CharSet.unpack 0 [
    "23hO3NBE"]),
  (["nko", "nkoo"], .ofSorted <| CharSet.unpack 0 [
    "24I2GCC"]),
  (["nshu", "nushu"], .ofSorted <| CharSet.unpack 0 [
    "2smFAhxMfF"]),
  (["ogam", "ogham"], .ofSorted <| CharSet.unpack 0 [
    "65O1C"]),
  (["olck", "olchiki"], .ofSorted <| CharSet.unpack 0 [
    "7qU1V"]),
  (["onao", "olonal"], .ofSorted <| CharSet.unpack 0 [
    "3ovK1QEA"]),
  (["orkh", "oldturkic"], .ofSorted <| CharSet.unpack 0 [
    "21aU2U"]),
  (["orya", "oriya"], .ofSorted <| CharSet.unpack 0 [
    "30JCBHCBCVBGBBBECICBCCHCEBBECR"]),
  (["osge", "osage"], .ofSorted <| CharSet.unpack 0 [
    "1zaU1JE1J"]),
  (["osma", "osmanya"], .ofSorted <| CharSet.unpack 0 [
    "1z8Y1DCJ"]),
  (["ougr", "olduyghur"], .ofSorted <| CharSet.unpack 0 [
    "228QZ"]),
  (["palm", "palmyrene"], .ofSorted <| CharSet.unpack 0 [
    "20bC1F"]),
  (["pauc", "paucinhau"], .ofSorted <| CharSet.unpack 0 [
    "25cA2E"]),
  (["perm", "oldpermic"], .ofSorted <| CharSet.unpack 0 [
    "1yxG1Q"]),
  (["phag", "phagspa"], .ofSorted <| CharSet.unpack 0 [
    "1a0Q2D"]),
  (["phli", "inscriptionalpahlavi"], .ofSorted <| CharSet.unpack 0 [
    "214QSFH"]),
  (["phlp", "psalterpahlavi"], .ofSorted <| CharSet.unpack 0 [
    "215WRHDMG"]),
  (["phnx", "phoenician"], .ofSorted <| CharSet.unpack 0 [
    "20hG1BDA"]),
  (["prti", "inscriptionalparthian"], .ofSorted <| CharSet.unpack 0 [
    "213KVCH"]),
  (["qaai", "zinh", "inherited"], .ofSorted <| CharSet.unpack 0 [
    "tO4HaRBhKK1AAsID4qX1EjTCBMBGEAGADB7Q2LkEB7M1G45XD4DB1k6JPQN11NA8SA4hAA1fcU1TCWkYCRHCG1EDnp5I",
    "9F"]),
  (["rjng", "rejang"], .ofSorted <| CharSet.unpack 0 [
    "1a9W1JLA"]),
  (["rohg", "hanifirohingya"], .ofSorted <| CharSet.unpack 0 [
    "21kQ1NIJ"]),
  (["runr", "runic"], .ofSorted <| CharSet.unpack 0 [
    "66U2WDK"]),
  (["samr", "samaritan"], .ofSorted <| CharSet.unpack 0 [
    "26U1TCO"]),
  (["sarb", "oldsoutharabian"], .ofSorted <| CharSet.unpack 0 [
    "20uU1F"]),
  (["saur", "saurashtra"], .ofSorted <| CharSet.unpack 0 [
    "1a3C2RIL"]),
  (["sgnw", "signwriting"], .ofSorted <| CharSet.unpack 0 [
    "3l3KpBPEBO"]),
  (["shaw", "shavian"], .ofSorted <| CharSet.unpack 0 [
    "1z7C1V"]),
  (["shrd", "sharada"], .ofSorted <| CharSet.unpack 0 [
    "22sY3R"]),
  (["sidd", "siddham"], .ofSorted <| CharSet.unpack 0 [
    "23wI2BC1L"]),
  (["sind", "khudawadi"], .ofSorted <| CharSet.unpack 0 [
    "234Q2GFJ"]),
  (["sinh", "sinhala"], .ofSorted <| CharSet.unpack 0 [
    "3oZCBRDXBIBACGDAEFBABHGJCC1z3GT"]),
  (["sogd", "sogdian"], .ofSorted <| CharSet.unpack 0 [
    "226E1P"]),
  (["sogo", "oldsogdian"], .ofSorted <| CharSet.unpack 0 [
    "224I1N"]),
  (["sora", "sorasompeng"], .ofSorted <| CharSet.unpack 0 [
    "22mEYHJ"]),
  (["soyo", "soyombo"], .ofSorted <| CharSet.unpack 0 [
    "257S3E"]),
  (["sund", "sundanese"], .ofSorted <| CharSet.unpack 0 [
    "7iU2L9WH"]),
  (["sunu", "sunuwar"], .ofSorted <| CharSet.unpack 0 [
    "25lW1HOJ"]),
  (["sylo", "sylotinagri"], .ofSorted <| CharSet.unpack 0 [
    "19yE1S"]),
  (["syrc", "syriac"], .ofSorted <| CharSet.unpack 0 [
    "1wYNB2HCCaMK"]),
  (["tagb", "tagbanwa"], .ofSorted <| CharSet.unpack 0 [
    "6eEMBCBB"]),
  (["takr", "takri"], .ofSorted <| CharSet.unpack 0 [
    "246E2FGJ"]),
  (["tale", "taile"], .ofSorted <| CharSet.unpack 0 [
    "6xG1DCE"]),
  (["talu", "newtailue"], .ofSorted <| CharSet.unpack 0 [
    "6zC1REZGKDB"]),
  (["taml", "tamil"], .ofSorted <| CharSet.unpack 0 [
    "35IBBFDCBDDBBABBDBDCDLEEDCBDCAGAOU23fH1XNA"]),
  (["tang", "tangut"], .ofSorted <| CharSet.unpack 0 [
    "2smEA1F6jZItNjSI"]),
  (["tavt", "taiviet"], .ofSorted <| CharSet.unpack 0 [
    "1amU2OYE"]),
  (["telu", "telugu"], .ofSorted <| CharSet.unpack 0 [
    "3aEMBCBWBPCIBCBDHBBCCACDCJHI"]),
  (["tfng", "tifinagh"], .ofSorted <| CharSet.unpack 0 [
    "ccY2DHBOA"]),
  (["tglg", "tagalog"], .ofSorted <| CharSet.unpack 0 [
    "6aMVJA"]),
  (["thaa", "thaana"], .ofSorted <| CharSet.unpack 0 [
    "21W1X"]),
  (["thai"], .ofSorted <| CharSet.unpack 0 [
    "3tX2FF1B"]),
  (["tibt", "tibetan"], .ofSorted <| CharSet.unpack 0 [
    "43S2TB1JE1MB1JBOBGEB"]),
  (["tirh", "tirhuta"], .ofSorted <| CharSet.unpack 0 [
    "23mM2TIJ"]),
  (["tnsa", "tangsa"], .ofSorted <| CharSet.unpack 0 [
    "2r4Q3ABJ"]),
  (["todr", "todhri"], .ofSorted <| CharSet.unpack 0 [
    "1zlG1Z"]),
  (["toto"], .ofSorted <| CharSet.unpack 0 [
    "3nzK1E"]),
  (["tutg", "tulutigalari"], .ofSorted <| CharSet.unpack 0 [
    "23cQJBACAB1LBJBACABDBJBBIB"]),
  (["ugar", "ugaritic"], .ofSorted <| CharSet.unpack 0 [
    "1yzC1DBA"]),
  (["vai", "vaii"], .ofSorted <| CharSet.unpack 0 [
    "194QbN"]),
  (["vith", "vithkuqi"], .ofSorted <| CharSet.unpack 0 [
    "1ziEKBOBGBBBKBOBGBB"]),
  (["wara", "warangciti"], .ofSorted <| CharSet.unpack 0 [
    "24rC3EMA"]),
  (["wcho", "wancho"], .ofSorted <| CharSet.unpack 0 [
    "3o1G2FFA"]),
  (["xpeo", "oldpersian"], .ofSorted <| CharSet.unpack 0 [
    "1z0I1JEN"]),
  (["xsux", "cuneiform"], .ofSorted <| CharSet.unpack 0 [
    "26rSzL3Y4GBEL7N"]),
  (["yezi", "yezidi"], .ofSorted <| CharSet.unpack 0 [
    "21zK1PBCCB"]),
  (["yi", "yiii"], .ofSorted <| CharSet.unpack 0 [
    "17rK18UD2C"]),
  (["zanb", "zanabazarsquare"], .ofSorted <| CharSet.unpack 0 [
    "254Q2T"]),
  (["zyyy", "common"], .ofSorted <| CharSet.unpack 0 [
    "A2M1AF1A1UBOBEXA1FAhH1MFECT4MAJAGABAoNAGAOADA1GA6AAjWA4ZB1bTAfPDbEA1mLC2TB7VBBA1bHANAHDBFBCC",
    "AtTLC3IBKDKBOR1G2L1LBCCFB1ABQ1PCEpPWKVzR9WoDC1FB4AjS3PfMUBABYPHED3NBDA3MB5RP1G1LJA1W2L1F3C1V",
    "A3K6L71O2LocI1H3YC6JJ9KA6EAfFAOBmdQB8AJW1IBSBD5RAB1F1AF1AKKA1TB2MGBGKE9YCE1SDI3CM1Z1S8U1A1er",
    "WD47G9PGgT6A4L2I9LK1MC2JDQIBH1DE2I8FTMTM3IJY5F3GB2SBBCACBCDBLBABGB2MBDCHBGB1BBDBEBADGBdBCbFC",
    "1X5lH2P2Y2IrE1RE3VMOCOBOB1KK6R2EZBBN1REIHBOF5Y11VEQDMD4OE3QGLEAPLE2DIJG1NI1DCLEB2KdBMNCMDJF2",
    "DHOCKGIH5QB3XndbBA1E3R"])]

end Tinct.Unicode
