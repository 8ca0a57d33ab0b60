import Tinct.CharSet

/-!
# Script extensions

The characters used with each script, characters shared by several scripts included.
-/

namespace Tinct.Unicode

/-- The scripts with what they share, each under its names without spaces, dashes and capitals. -/
def scriptExtensions : List (List String × CharSet) := [
  (["adlm", "adlam"], .ofSorted <| CharSet.unpack 0 [
    "1oHA1GA74OA3tHA3d3I2XEJEB"]),
  (["aghb", "caucasianalbanian"], .ofSorted <| CharSet.unpack 0 [
    "tSA1SA1SA1yiN1ZLA"]),
  (["ahom"], .ofSorted <| CharSet.unpack 0 [
    "24bC1ACOEW"]),
  (["arab", "arabic"], .ofSorted <| CharSet.unpack 0 [
    "1nCEB8GB1H3C1V9G1EBBF2WB1C6dNA3tHA1k3A4KQhCC2BHA1GP4IEB5E12H1B34E1E2PC2DD1ozSDB1ABBBACABJBDB",
    "ABAGAEABABABCBBBACABABABABABBBACDBGBDBDBABJBQFCBEBQ2AB"]),
  (["armi", "imperialaramaic"], .ofSorted <| CharSet.unpack 0 [
    "209WVBI"]),
  (["armn", "armenian"], .ofSorted <| CharSet.unpack 0 [
    "tWAlG1LC1XCC1v5JE"]),
  (["avst", "avestan"], .ofSorted <| CharSet.unpack 0 [
    "7BAcfSB1oeC2BDG"]),
  (["bali", "balinese"], .ofSorted <| CharSet.unpack 0 [
    "7dW2YB1X"]),
  (["bamu", "bamum"], .ofSorted <| CharSet.unpack 0 [
    "19kQ3J1gsQlW"]),
  (["bass", "bassavah"], .ofSorted <| CharSet.unpack 0 [
    "2r8I1DCF"]),
  (["batk", "batak"], .ofSorted <| CharSet.unpack 0 [
    "7lG1ZID"]),
  (["beng", "bengali"], .ofSorted <| CharSet.unpack 0 [
    "qYA1sUBRB1ADBHCBCVBGBADDCICBCDIAEBBECY55HABACBBAIAIACAEACC12aFA"]),
  (["bhks", "bhaiksuki"], .ofSorted <| CharSet.unpack 0 [
    "25oIIB1SBNK1C"]),
  (["bopo", "bopomofo"], .ofSorted <| CharSet.unpack 0 [
    "rJABCNAQBcbXCEJBMKDCAGA7NAJ1Q4I1F1jxTBaWE"]),
  (["brah", "brahmi"], .ofSorted <| CharSet.unpack 0 [
    "22eE2ZE1JJA"]),
  (["brai", "braille"], .ofSorted <| CharSet.unpack 0 [
    "axW9V"]),
  (["bugi", "buginese"], .ofSorted <| CharSet.unpack 0 [
    "74A1BCB13aTA"]),
  (["buhd", "buhid"], .ofSorted <| CharSet.unpack 0 [
    "6cNBJT"]),
  (["cakm", "chakma"], .ofSorted <| CharSet.unpack 0 [
    "2pMJ1qEJ1y7Q2ABR"]),
  (["cans", "canadianaboriginal"], .ofSorted <| CharSet.unpack 0 [
    "5gYoPlO2R1yhQP"]),
  (["cari", "carian"], .ofSorted <| CharSet.unpack 0 [
    "7BA8nMACA3sDA1m3Q1W"]),
  (["cham"], .ofSorted <| CharSet.unpack 0 [
    "1ahW2CJNCJCD"]),
  (["cher", "cherokee"], .ofSorted <| CharSet.unpack 0 [
    "tOCBAGBWBLB4hU3HCF15fE3B"]),
  (["chrs", "chorasmian"], .ofSorted <| CharSet.unpack 0 [
    "22bC1B"]),
  (["copt", "qaac", "coptic"], .ofSorted <| CharSet.unpack 0 [
    "7BAmMADBBA4EB4ENb3K4LFGaTA1m7C1B"]),
  (["cpmn", "cyprominoan"], .ofSorted <| CharSet.unpack 0 [
    "1yaMBcqK3U"]),
  (["cprt", "cypriot"], .ofSorted <| CharSet.unpack 0 [
    "1yaMCE1SDI1uMFCAB1RBBDACA"]),
  (["cyrl", "cyrillic"], .ofSorted <| CharSet.unpack 0 [
    "qYA2PCBABABACAFA9EbR6dOK6EA2YA4XA4cP1F2PAwtK3RnyCB1ptG2J1HA"]),
  (["deva", "devanagari"], .ofSorted <| CharSet.unpack 0 [
    "qYA1pR3EC1Q5aE1MBB13AA10zRJ6K1Fv6MJ"]),
  (["diak", "divesakuru"], .ofSorted <| CharSet.unpack 0 [
    "24uUGCACHBBB1DBBCLJJ"]),
  (["dogr", "dogra"], .ofSorted <| CharSet.unpack 0 [
    "2kML17fCJukO2H"]),
  (["dsrt", "deseret"], .ofSorted <| CharSet.unpack 0 [
    "1z4A3B"]),
  (["dupl", "duployan"], .ofSorted <| CharSet.unpack 0 [
    "7BAmTBBAYBbsHA30sL4CFMDIHJCH"]),
  (["egyp", "egyptianhieroglyphs"], .ofSorted <| CharSet.unpack 0 [
    "2b5G16RK49Q"]),
  (["elba", "elbasan"], .ofSorted <| CharSet.unpack 0 [
    "7BAmRA1ykC1N"]),
  (["elym", "elymaic"], .ofSorted <| CharSet.unpack 0 [
    "22cYW"]),
  (["ethi", "ethiopic"], .ofSorted <| CharSet.unpack 0 [
    "uCA43D2UBDCGBABDC1OBDC1GBDCGBABDCOB2EBDC2OC1FDZ73AWJGBGBGBGBGBGBGBGy8CFCFCFJGBG2emFGBDBBBO"]),
  (["gara", "garay"], .ofSorted <| CharSet.unpack 0 [
    "1nOAOADA1zyU1LD1CIB"]),
  (["geor", "georgian"], .ofSorted <| CharSet.unpack 0 [
    "7BA1bLA31E1LBAFAC1V35W1QCCzMA3gN1LBAFA9ZA"]),
  (["glag", "glagolitic"], .ofSorted <| CharSet.unpack 0 [
    "7BAmPABAeSACA9XA34RA47IA36R3RiPAwvFA2drKGBQCGBBBE"]),
  (["gong", "gunjalagondi"], .ofSorted <| CharSet.unpack 0 [
    "7BA2dKB23hIFBBB1KBBBFHJ"]),
  (["gonm", "masaramgondi"], .ofSorted <| CharSet.unpack 0 [
    "2kMB23dQGBBB1RDABBBIIJ"]),
  (["goth", "gothic"], .ofSorted <| CharSet.unpack 0 [
    "7BAmQBCA1OA1y0O1A"]),
  (["gran", "grantha"], .ofSorted <| CharSet.unpack 0 [
    "2jTBRBoQN4mAABB1ECDB13AA1u7JDBHCBCVBGBBBEBJCBCCCAGAFGCGDE3dRBBA"]),
  (["grek", "greek"], .ofSorted <| CharSet.unpack 0 [
    "7BAmMBCABABAKA1UACA1QHCDBAEABABCBABTB2KOP6vQE1YEEE3GCcGVCFC1LCFCHBABABAB1EC2ABOBNCFBSCCBI3QA",
    "7SA11tEAnhI3ARA1kzR2R"]),
  (["gujr", "gujarati"], .ofSorted <| CharSet.unpack 0 [
    "2jTBRBaXCBIBCBVBGBBBECJBCBCCAPDCLHG16zSJ"]),
  (["gukh", "gurungkhema"], .ofSorted <| CharSet.unpack 0 [
    "2kNA2lzE2F"]),
  (["guru", "gurmukhi"], .ofSorted <| CharSet.unpack 0 [
    "2jTBRB5ZCBFEBCVBGBBBBBBCABEEBCCDAHDBAHQ174ZJ"]),
  (["han", "hani"], .ofSorted <| CharSet.unpack 0 [
    "7BAciUZB3KM8F1APBCBMBMBMCAGI7FA5SP1G1LJA1W1N2E1WPL1ZA3KYKE3S1EB71N2MmfJ1wYHmfCeBC4BxRBaWEurO",
    "BMBr7AR8fYB3qS19nB1G4fTG8NC65PO7zKPnX2mWkV1lY59YF4hF"]),
  (["hang", "hangul"], .ofSorted <| CharSet.unpack 0 [
    "4nK9V87LCEJBMOCGA7NA2B3P4J1E2N1EwiN1CoTbxRMWE1WagZBaWE2G1EDFCFCFCC"]),
  (["hano", "hanunoo"], .ofSorted <| CharSet.unpack 0 [
    "6bSW"]),
  (["hatr", "hatran"], .ofSorted <| CharSet.unpack 0 [
    "20gASBBFE"]),
  (["hebr", "hebrew"], .ofSorted <| CharSet.unpack 0 [
    "tVBoY2CI1AEF1v1WZBEBABBBBBJ"]),
  (["hira", "hiragana"], .ofSorted <| CharSet.unpack 0 [
    "d4RCEJBMQFBAEBD3HCH3MB1k5GBaWEKA1TB1c8RbASA1DChoVA"]),
  (["hluw", "anatolianhieroglyphs"], .ofSorted <| CharSet.unpack 0 [
    "2gmEmK"]),
  (["hmng", "pahawhhmong"], .ofSorted <| CharSet.unpack 0 [
    "2raE2RKJBGBUFS"]),
  (["hmnp", "nyiakengpuachuehmong"], .ofSorted <| CharSet.unpack 0 [
    "3nkA1SDNCJEB"]),
  (["hung", "oldhungarian"], .ofSorted <| CharSet.unpack 0 [
    "8uOACA3sDAPA1osG1YN1YHF"]),
  (["ital", "olditalic"], .ofSorted <| CharSet.unpack 0 [
    "1yuE1JJC"]),
  (["java", "javanese"], .ofSorted <| CharSet.unpack 0 [
    "1acY2ZBKEB"]),
  (["kali", "kayahli"], .ofSorted <| CharSet.unpack 0 [
    "1a8A1V"]),
  (["kana", "katakana"], .ofSorted <| CharSet.unpack 0 [
    "tTA1DAc9TCEJBMQFBAEB3NDD3R9GP8A1UB3J1jiBBaW2K1c8ADBGBBBAbBC1YAOD"]),
  (["kawi"], .ofSorted <| CharSet.unpack 0 [
    "26hWQB1OD1C"]),
  (["khar", "kharoshthi"], .ofSorted <| CharSet.unpack 0 [
    "20rCDBBFHBCB1CCCEJHI"]),
  (["khmr", "khmer"], .ofSorted <| CharSet.unpack 0 [
    "6fK3PCJGJiS1F"]),
  (["khoj", "khojki"], .ofSorted <| CharSet.unpack 0 [
    "2zIJ170IJsxMRB1U"]),
  (["kits", "khitansmallscript"], .ofSorted <| CharSet.unpack 0 [
    "2smIA7eXiB1PA"]),
  (["knda", "kannada"], .ofSorted <| CharSet.unpack 0 [
    "2jTBRBuOMBCBWBJBECIBCBDHBGBBDCJBC4cEABBGAXABA122XF"]),
  (["krai", "kiratrai"], .ofSorted <| CharSet.unpack 0 [
    "2rwI2F"]),
  (["kthi", "kaithi"], .ofSorted <| CharSet.unpack 0 [
    "2kOJa1XAxdEJsiS2OKA"]),
  (["lana", "taitham"], .ofSorted <| CharSet.unpack 0 [
    "75G2KB1CCKGJGN"]),
  (["lao", "laoo"], .ofSorted <| CharSet.unpack 0 [
    "3yVBBABEBXBABWCEBABGBJCD"]),
  (["latn", "latin"], .ofSorted <| CharSet.unpack 0 [
    "2NZGZ1VAMACAFWB1EBhGDAKABCBAJABAGE1BOBBBAMACCHBBB1MAFAEMaRB1bEB23KA3aI1LG1WFDFMB2R2FAH9VbRA2",
    "NANAQM3FA2FBGA1BAR1O2yT1FfRAx2MH1A3XD2OCBBABHVNbQAjT1QBIBDlrQG14KZGZ28FFB1PBI1mvP1EGF"]),
  (["lepc", "lepcha"], .ofSorted <| CharSet.unpack 0 [
    "7nS2DDODC"]),
  (["limb", "limbu"], .ofSorted <| CharSet.unpack 0 [
    "2kNA49Q1EBLELEADL"]),
  (["lina", "lineara"], .ofSorted <| CharSet.unpack 0 [
    "1yaT1S1bGbYJVKH"]),
  (["linb", "linearb"], .ofSorted <| CharSet.unpack 0 [
    "1y0QLBZBSBBBOCN1I4SFCE1SDI"]),
  (["lisu"], .ofSorted <| CharSet.unpack 0 [
    "qYAQAcdKBvxS1VxkAA"]),
  (["lyci", "lycian"], .ofSorted <| CharSet.unpack 0 [
    "8uOA1puR1C"]),
  (["lydi", "lydian"], .ofSorted <| CharSet.unpack 0 [
    "7BAcfTA1nvQZFA"]),
  (["mahj", "mahajani"], .ofSorted <| CharSet.unpack 0 [
    "7BA2dKL17fCJsqS1M"]),
  (["maka", "makasar"], .ofSorted <| CharSet.unpack 0 [
    "26gQY"]),
  (["mand", "mandaic"], .ofSorted <| CharSet.unpack 0 [
    "1pOAjR1BCA"]),
  (["mani", "manichaean"], .ofSorted <| CharSet.unpack 0 [
    "1pOA1z8X1MEL"]),
  (["marc", "marchen"], .ofSorted <| CharSet.unpack 0 [
    "25sQ1FCVBN"]),
  (["medf", "medefaidrin"], .ofSorted <| CharSet.unpack 0 [
    "2s6E3M"]),
  (["mend", "mendekikakui"], .ofSorted <| CharSet.unpack 0 [
    "3pgY7OCP"]),
  (["merc", "meroiticcursive"], .ofSorted <| CharSet.unpack 0 [
    "20nKXETC1T"]),
  (["mero", "meroitichieroglyphs"], .ofSorted <| CharSet.unpack 0 [
    "8uRA1rrM1F"]),
  (["miao", "plrd"], .ofSorted <| CharSet.unpack 0 [
    "2sdO2WE2EHQ"]),
  (["mlym", "malayalam"], .ofSorted <| CharSet.unpack 0 [
    "2jTBRBzMMBCB1YBCBFEPCZ47EAXA122ZC"]),
  (["modi"], .ofSorted <| CharSet.unpack 0 [
    "1a0AJu0W2QLJ"]),
  (["mong", "mongolian"], .ofSorted <| CharSet.unpack 0 [
    "6kIZG3KH1Q22AA4bTBFD1qzWM"]),
  (["mro", "mroo"], .ofSorted <| CharSet.unpack 0 [
    "2r2U1EBJEB"]),
  (["mtei", "meeteimayek"], .ofSorted <| CharSet.unpack 0 [
    "1aqMW7T1TCJ"]),
  (["mult", "multani"], .ofSorted <| CharSet.unpack 0 [
    "2uKJ208AGBABDBOBK"]),
  (["mymr", "myanmar"], .ofSorted <| CharSet.unpack 0 [
    "4dO6D15qCA6V1E3T1FtmMT"]),
  (["nagm", "nagmundari"], .ofSorted <| CharSet.unpack 0 [
    "3olO1P"]),
  (["nand", "nandinagari"], .ofSorted <| CharSet.unpack 0 [
    "2kMByMJ4dHAIAHA122RFv0SHC1TCK"]),
  (["narb", "oldnortharabian"], .ofSorted <| CharSet.unpack 0 [
    "20wA1F"]),
  (["nbat", "nabataean"], .ofSorted <| CharSet.unpack 0 [
    "20cI1EII"]),
  (["newa"], .ofSorted <| CharSet.unpack 0 [
    "23hO3NBE"]),
  (["nko", "nkoo"], .ofSorted <| CharSet.unpack 0 [
    "1nOAOADAgA2GCC1v2SB"]),
  (["nshu", "nushu"], .ofSorted <| CharSet.unpack 0 [
    "2smFAhxMfF"]),
  (["ogam", "ogham"], .ofSorted <| CharSet.unpack 0 [
    "65O1C"]),
  (["olck", "olchiki"], .ofSorted <| CharSet.unpack 0 [
    "7qU1V"]),
  (["onao", "olonal"], .ofSorted <| CharSet.unpack 0 [
    "2kMB3maW1QEA"]),
  (["orkh", "oldturkic"], .ofSorted <| CharSet.unpack 0 [
    "8uOA3sFA1onZ2U"]),
  (["orya", "oriya"], .ofSorted <| CharSet.unpack 0 [
    "2jTBRBfVCBHCBCVBGBBBECICBCCHCEBBECR4rEAXA"]),
  (["osge", "osage"], .ofSorted <| CharSet.unpack 0 [
    "tPACAGA2YA1ydV1JE1J"]),
  (["osma", "osmanya"], .ofSorted <| CharSet.unpack 0 [
    "1z8Y1DCJ"]),
  (["ougr", "olduyghur"], .ofSorted <| CharSet.unpack 0 [
    "1pOA1zaVA18FZ"]),
  (["palm", "palmyrene"], .ofSorted <| CharSet.unpack 0 [
    "20bC1F"]),
  (["pauc", "paucinhau"], .ofSorted <| CharSet.unpack 0 [
    "25cA2E"]),
  (["perm", "oldpermic"], .ofSorted <| CharSet.unpack 0 [
    "7BAmMAFCKAeDA1xoU1Q"]),
  (["phag", "phagspa"], .ofSorted <| CharSet.unpack 0 [
    "6kKBBA28JA4bUAwvX2D"]),
  (["phli", "inscriptionalpahlavi"], .ofSorted <| CharSet.unpack 0 [
    "214QSFH"]),
  (["phlp", "psalterpahlavi"], .ofSorted <| CharSet.unpack 0 [
    "1pOA1zgHRHDMG"]),
  (["phnx", "phoenician"], .ofSorted <| CharSet.unpack 0 [
    "20hG1BDA"]),
  (["prti", "inscriptionalparthian"], .ofSorted <| CharSet.unpack 0 [
    "213KVCH"]),
  (["qaai", "zinh", "inherited"], .ofSorted <| CharSet.unpack 0 [
    "uDACABLBBDGCACPBBBRBEBD1mMB4qX1EtB2BBABEkEB7M1F1ogQPQN11NA1k2O1TCWkYCRHCG1EDnp5I9F"]),
  (["rjng", "rejang"], .ofSorted <| CharSet.unpack 0 [
    "1a9W1JLA"]),
  (["rohg", "hanifirohingya"], .ofSorted <| CharSet.unpack 0 [
    "1nOAOADA1GA5RA1zpJ1NIJ"]),
  (["runr", "runic"], .ofSorted <| CharSet.unpack 0 [
    "66U3K"]),
  (["samr", "samaritan"], .ofSorted <| CharSet.unpack 0 [
    "26U1TCOadQA"]),
  (["sarb", "oldsoutharabian"], .ofSorted <| CharSet.unpack 0 [
    "20uU1F"]),
  (["saur", "saurashtra"], .ofSorted <| CharSet.unpack 0 [
    "1a3C2RIL"]),
  (["sgnw", "signwriting"], .ofSorted <| CharSet.unpack 0 [
    "3l3KpBPEBO"]),
  (["shaw", "shavian"], .ofSorted <| CharSet.unpack 0 [
    "7BA1z0A1V"]),
  (["shrd", "sharada"], .ofSorted <| CharSet.unpack 0 [
    "2jTA5cFABACBCA123RFCAssP3R"]),
  (["sidd", "siddham"], .ofSorted <| CharSet.unpack 0 [
    "23wI2BC1L"]),
  (["sind", "khudawadi"], .ofSorted <| CharSet.unpack 0 [
    "2kMB17fMJt4G2GFJ"]),
  (["sinh", "sinhala"], .ofSorted <| CharSet.unpack 0 [
    "2kMB14LCBRDXBIBACGDAEFBABHGJCC43PA1uzQT"]),
  (["sogd", "sogdian"], .ofSorted <| CharSet.unpack 0 [
    "1pOA20gP1P"]),
  (["sogo", "oldsogdian"], .ofSorted <| CharSet.unpack 0 [
    "224I1N"]),
  (["sora", "sorasompeng"], .ofSorted <| CharSet.unpack 0 [
    "22mEYHJ"]),
  (["soyo", "soyombo"], .ofSorted <| CharSet.unpack 0 [
    "257S3E"]),
  (["sund", "sundanese"], .ofSorted <| CharSet.unpack 0 [
    "7iU2L9WH"]),
  (["sunu", "sunuwar"], .ofSorted <| CharSet.unpack 0 [
    "tOBBAJACA1CADA24qK1HOJ"]),
  (["sylo", "sylotinagri"], .ofSorted <| CharSet.unpack 0 [
    "2kMB4YJ178I1S"]),
  (["syrc", "syriac"], .ofSorted <| CharSet.unpack 0 [
    "tRBCBBAVACCHBBAsDAOBCA1GAKK1AA5NNB2HCCaMK5wFABA"]),
  (["tagb", "tagbanwa"], .ofSorted <| CharSet.unpack 0 [
    "6cNB1PMBCBB"]),
  (["takr", "takri"], .ofSorted <| CharSet.unpack 0 [
    "2kMB17fMJu5U2FGJ"]),
  (["tale", "taile"], .ofSorted <| CharSet.unpack 0 [
    "tOBFBDA3lZJ2gW1DCE"]),
  (["talu", "newtailue"], .ofSorted <| CharSet.unpack 0 [
    "6zC1REZGKDB"]),
  (["taml", "tamil"], .ofSorted <| CharSet.unpack 0 [
    "2jTBRBkUBBFDCBDDBBABBDBDCDLEEDCBDCAGAOU4mDA12bKAt0FABA2DB3fF1XNA"]),
  (["tang", "tangut"], .ofSorted <| CharSet.unpack 0 [
    "d4APjBA2eyMA1F6jZItNjSI"]),
  (["tavt", "taiviet"], .ofSorted <| CharSet.unpack 0 [
    "1amU2OYE"]),
  (["telu", "telugu"], .ofSorted <| CharSet.unpack 0 [
    "2jTBRBpQMBCBWBPCIBCBDHBBCCACDCJHI4hAAXA"]),
  (["tfng", "tifinagh"], .ofSorted <| CharSet.unpack 0 [
    "tQABACABAbjA2DHBOA"]),
  (["tglg", "tagalog"], .ofSorted <| CharSet.unpack 0 [
    "6aMVJAVB"]),
  (["thaa", "thaana"], .ofSorted <| CharSet.unpack 0 [
    "1nOAOBCA2MJaS1X1vcQAKA"]),
  (["thai"], .ofSorted <| CharSet.unpack 0 [
    "qYA1AA1RA1TA2yL2FF1B"]),
  (["tibt", "tibetan"], .ofSorted <| CharSet.unpack 0 [
    "43S2TB1JE1MB1JBOBGEB8sVD"]),
  (["tirh", "tirhuta"], .ofSorted <| CharSet.unpack 0 [
    "2jTBRB5cMA122ZJtmC2TIJ"]),
  (["tnsa", "tangsa"], .ofSorted <| CharSet.unpack 0 [
    "2r4Q3ABJ"]),
  (["todr", "todhri"], .ofSorted <| CharSet.unpack 0 [
    "tPACACAJABA2WA1yoB1Z"]),
  (["toto"], .ofSorted <| CharSet.unpack 0 [
    "qYA3n8L1E"]),
  (["tutg", "tulutigalari"], .ofSorted <| CharSet.unpack 0 [
    "3jAJ4dQABA122XF7FAt5EJBACAB1LBJBACABDBJBBIB"]),
  (["ugar", "ugaritic"], .ofSorted <| CharSet.unpack 0 [
    "1yzC1DBA"]),
  (["vai", "vaii"], .ofSorted <| CharSet.unpack 0 [
    "194QbN"]),
  (["vith", "vithkuqi"], .ofSorted <| CharSet.unpack 0 [
    "1ziEKBOBGBBBKBOBGBB"]),
  (["wara", "warangciti"], .ofSorted <| CharSet.unpack 0 [
    "24rC3EMA"]),
  (["wcho", "wancho"], .ofSorted <| CharSet.unpack 0 [
    "3o1G2FFA"]),
  (["xpeo", "oldpersian"], .ofSorted <| CharSet.unpack 0 [
    "1z0I1JEN"]),
  (["xsux", "cuneiform"], .ofSorted <| CharSet.unpack 0 [
    "26rSzL3Y4GBEL7N"]),
  (["yezi", "yezidi"], .ofSorted <| CharSet.unpack 0 [
    "1nOAOADA2MJ208G1PBCCB"]),
  (["yi", "yiii"], .ofSorted <| CharSet.unpack 0 [
    "d4RBFJCH8PAudC18UD2CosCE"]),
  (["zanb", "zanabazarsquare"], .ofSorted <| CharSet.unpack 0 [
    "254Q2T"]),
  (["zyyy", "common"], .ofSorted <| CharSet.unpack 0 [
    "A2M1AF1A1UBLBBBEXA1FAhHCBJBADABIBABFFECT4WAGABAoNA8HAjWA1gUAfPD4fBLC1GB1EBJBBBGBKDKBOR1G2L1L",
    "BCCFB1ABQ1PCEpPWKVzR9WoDC1FB4AjSWBXCJBDBABZgCADANANAVAkJX1FA1XOMD6FJF3R1FA71O2LocQZ3YC11OAOB",
    "mlSJWUCLBSBD5RAB1F1AF1AF4XGBGKEfMM1Z1S1j9B9PGgT6A4L2I9LK1MC2JDQIBH1DE2I8FTMTM3I1BG5F3GB2SBBC",
    "ACBCDBLBABGB2MBDCHBGB1BBDBEBADGBdBCbFC1X5lH2P2Y2IrE1RE3VMOCOBOB1KK6R2EZBBN1REIXF5Y11VEQDMD4O",
    "E3QGLEAPLE2DIJG1NI1DCLEB2KdBMNCMDJF2DHOCKGIH5QB3XndbBA1E3R"])]

end Tinct.Unicode
