import Tinct.CharSet
import Tinct.Unicode.Word

/-!
# Yes-or-no properties

The characters that have each yes-or-no property of the Unicode character database, version
16.0.
-/

namespace Tinct.Unicode

/-- The yes-or-no properties, each under its names without spaces, dashes and capitals. -/
def properties : List (List String × CharSet) := [
  (["ahex", "asciihexdigit"], .ofSorted <| CharSet.unpack 0 [
    "1WJHF1AF"]),
  (["alpha", "alphabetic"], .ofSorted <| CharSet.unpack 0 [
    "2NZGZ1VAKAEAFWB1EBhPELOEHABA3IA1DRBBCDBAGABCBABTB3EB5II6JB1LCAG1O1NNBABBBBBAI1AED1DKF2DBGO3X",
    "BHEHECKCCAQ1VN3WY1GJBEAFXCSTYHKFXBFIAI1PKLDGG2XBPBCEONSBHCBCVBGBADDDHCBCBBAIAEBBEMBKAECBFEBC",
    "VBGBBBBBBEEEBCBEAHDBARFLCBIBCBVBGBBBEDIBCBBDAPDVDECBHCBCVBGBBBEDHCBCBJBEBBENAQBBFDCBDDBBABBD",
    "BDCDLEEDCBCDAGA1OMBCBWBPDHBCBCIBBCCACD1CDBHBCBWBJBEDHBCBCIBGBBDNCMMBCB1OCHBCBCBAFDHEWFBCBRDX",
    "BIBACGIFBABHSBN2FFGGA1ZBBABEBXBABSBCCEBAGAOD1GA2LHB1JESEPB1J2P2CBACEQ2LKDC1LBAFAC1QBcUBDCGBA",
    "BDC1OBDC1GBDCGBABDCOB2EBDC2O1LPQ3HCFDnVCQBZF2WDKHTLUMTMMBCBBM1ZCSOAEA2P3KH1QF2RK1EBLEIX1DCEL",
    "1REZ2C1BE2KCT1YAXBLC1X1ZBOBH1Z1PCDK1RBKO2CWCK1JCKF1QCC1PDBFBBDAF7JT1HLaRCFC1LCFCHBABABAB1EC2",
    "ABGBADCBGDDCFEMFCBG4MANAQM3XAEACJBADEGABABABDBKCDFEEAR1OvH1Z1xU8UGDDBM1LBAFAC2DHAQWJGBGBGBGB",
    "GBGBGBGB1F1VAiBCZIHECEE3HGCB3LBDF1QB3PR1F1WPjS71N2MnoE2P1TCaIDPKBU1UFHD4I1NIC3YC2OCBBABHVTB1",
    "GY1ZM2PBA1SFDABCK1GF1IN1CD1YBLPAQPKEB2CJNSWD2QBABAYCCPCDLFCFCFJGBGB1QBNG4SVbxRMWE1W91CeBC4B1",
    "MGMEFLBMBEBABBBBB4D1HdYS2LC2B1OL4MEB5E1KZGZL3KDFCFCFCC1JLBZBSBBBOCN1I4S2R2AaH1CD1W1V1FN1DF1Q",
    "F1DC1JEHBE1Q6BS1JE1JE1NI1ZMKBOBGBBBKBOBGBBD1ZMbYJVKHYFB1PBI2RFCAB1RBBDACWKWJ1E2NSBBKVKZ2S2DG",
    "B2MDBBFHBCB1C1Q1CD1C1JHB1B1B2BKVKSNR4G2U2D1YN1YN1N1I1BDAFW9Q1PBBDBQC2DAD1CKAIV1QR1UU1BWJ2R1R",
    "EK2EJANYX1YRDI1IDAJ2LBDJBKABA1JRB1HCAGD2KGBABDBOBJH2EXDBHCBCVBGBBBEDHCBCBDAGAFG1CJBACAB1LBJB",
    "ACABDBBDABA1S2NBCBDUC1E2NCBBA7C2BCGZF1I2KBADA2H2BCA2T1ACNVG7D2E3Z2L1FHCACHBBB1DBBCBCD3PHC1TC",
    "FBABB1B1YCJR2TFAS2U7R1G1FIB1SBGBA1X1DCVBN2VGBBB1RDABBBCBACBYFBBB1KBBBDBAcPWJQB1ODC4HA3BzL3Y4",
    "GR7N2tK3SP15FRFZ49QFmK7bD1U1vDlWH1ER3AR1DS1VQD1FUFSgQ1S8D2L4Y2WE2EHQ2MBBAMBO6jZI1bP1PJ9jRDBG",
    "BBBbEPA1DCCAODIfF2gU4CFMDIHJEA6eF3GB2SBBCACBCDBLBABGB2MBDCHBGB1BBDBEBADGBdBCYBYB1EBYB1EBYB1E",
    "BYB1EBYBH1yY1EGF8FGBQCGBBBEF2J1HA4I1SKGQAcJ1DS1RiQ1B8U1DCAjBGBDBBBOB7O2H2PDADA1aIDB1ABBBACAB",
    "JBDBABAGAEABABABCBBBACABABABABABBBACDBGBDBDBABJBQFCBEBQoEZGZGZ3yK19nB1G4fTG8NC65PO7zKPnX2mWk",
    "V1lY59YF4hF"]),
  (["bidic", "bidicontrol"], .ofSorted <| CharSet.unpack 0 [
    "1oEA73LB1AE2DD"]),
  (["bidim", "bidimirrored"], .ofSorted <| CharSet.unpack 0 [
    "1OBSABA1CABA1DABA1TAPA3ySD20NB2mQBKB2CBOB6VA7KDDFDADBDDBDBABAEIFABRFDJBBABHB1FCDFAJBCSFBJECB",
    "EXCPIDUBHB15TN2WACDBBBCFDFCDNfNVCFBNIAHFDAEEBBCEEABCCBKFCBMSBDCABACABDFBGCYBLBEDBBCBE1QCHB1N",
    "FABADEFCEADEBA9WAjVDDBBBOBCJ1RHgLJCH1keRFFB6GBSABA1CABA1DABABBBB1mxNA2FA2FA2FA2FA"]),
  (["ci", "caseignorable"], .ofSorted <| CharSet.unpack 0 [
    "1NAGALA1JABA2TAEABAEACBjJ7JEBEAJBBA9RG7ZAFA1X1SBABBBBBA1SALFKKBA1JAKUQA3XHBJBD1HABA1E1A3NK2G",
    "KEACAYX1RC1SAHBFI1P2F2DABAEHEADGKBNAPA2GAEDIAUB1AACB2FAEBEBCCDA1EBDALB2FAEEBBEAUBWFBA2GACABD",
    "IAHBLB1EA2JAMA1YADA2DABCFCBDHBLB1DA2GACAGAFBUB1CB2FBEDIAUB1DA2UAHCBA3MACGLI3UACIJABG2VB1BABA",
    "BA2DNBEBBFKB1JJA3YDBFBBCBZBECQDNACBGAPA3QAnKC10KC1DB1EB1EB2MBBGIACKDAFA1TE1ZA2NB1IA4OCEBJAGC",
    "8LBCA2GABGBABACHGJCA1NAI1E1XD1WABEBAFA1OIMB1GDCBBC2EABBDABC2GHCB2MF3ECBMBGEAGADB1Y2KNA1I3WhD",
    "ABCLCNCNCNBMEIBKACACE1XEBJBANAQM1Z1G35RB4JC4VAPA3S1F1VAiBA1KDDEFA3PF3PCudUA1cCFaKA3UDBJBA1CD",
    "3CBO1H3AAXC3ZCDBIADAEAZBFA5VB1ARNA1MHZK1UC1WACDCBRAVB2OFCBCBMAIA1JALA1ZABCCBFBBA1BAOBFBBA3WE",
    "JC4RACAEAlnSA5RQmBPDAMP1IACA6NAHAGALA1JABA1VA1TB2PAVCjTA8SA5TE13PFB1PBImKCBBFD1OCEA6JBmBD1MA",
    "1AEBAcDB3BD2SK1XD4TA2CO1PACBKC1XDCBCAEAKA1YC1KEBH2KAMB2AIKDCA3RCCABBGACA6BADHVB2FBDA1LGDE2SF",
    "NABABAOB3HHCCBAXA3GFBAEBBB9EDGBBB1BB3HHCABB4CABACFBA3XABACDBE9ZIBB9WBBAEA5ODCBEA1GJ1OFCDIAJF",
    "CC1UMBBfQGBFBA3EVCGBBBB4SFDABBBGBA2UBDABAdJBLB2AEFABAXA5pDQGOc8YLDC2oAE2HGJDjOC1OBiOA2LQ2MBB",
    "BhiPDBGBB3gGBBD50U1TCWkYCJPCG1ED5SC24D2CE1XIAOAWEBO1gIGBQCGBBBEF2J1HA6ENeEA2JDjNE9UBsIG4FH2x",
    "FEnfhPA1E3R4Y9F"]),
  (["cased"], .ofSorted <| CharSet.unpack 0 [
    "2NZGZ1VAKAEAFWB1EB7MBDE7ZB1JHB1EE3SA1QDCBCDBAGABCBABTB3EB5II6JB1LJ1O31F1LBAFAC1QBDpW3HCF2bUK",
    "F1QCC2M7J2MaRCFC1LCFCHBABABAB1EC2ABGBADCBGDDCFEMFCBG4MANAQM3XAEACJBADEGABABABDBFEACDFEEAR1FD",
    "BvL1Z1xU8UGDDBM1LBAFAx4C1TS1D5C3XDDB2JCBBABHVEBCvP1QBNG3BloIGME13TZGZ19T3B3S1JE1J4MKBOBGBBBK",
    "BOBGBBhJACCB1PBI1aZ1YN1Y3PVKV31I2LncQ2LrrK3GB2SBBCACBCDBLBABGB2MBDCHBGB1BBDBEBADGBdBCYBYB1EB",
    "YB1EBYB1EBYB1EBYBH1yYJBTGFaB2J2cK2P26AZGZGZ"]),
  (["cwcf", "changeswhencasefolded"], .ofSorted <| CharSet.unpack 0 [
    "2NZ3MAKWBH1GABABABABABABABABABABABABABABABABABABABABABABABABABABABACABABABABABABABABBBABABAB",
    "ABABABABABABABABABABABABABABABABABABABBBABABABBBABBBCCDBBBCDBBBBABABBBACABBBCBABBDAHBBBBBBAB",
    "ABABABABABABACABABABABABABABABACBBABCBABABABABABABABABABABABABABABABABABABABABABABABABABABAB",
    "ABAHBBBCABDBABABABA9MA1QABADAIAGABCBABBBQBIWAMCDBBABABABABABABABABABABABABBCBBABBC1Y1WABABAB",
    "ABABABABABABABABABABABABABAJABABABABABABABABABABABABABABABABABABABABABABABABABABABBBABABABAB",
    "ABACABABABABABABABABABABABABABABABABABABABABABABABABABABABABABABABABABABABABABABABABABABABAB",
    "ABABABAC1L1WA31G1LBAFAvEF2bUJG1QCCcIABABABABABABABABABABABABABABABABABABABABABABABABABABABAB",
    "ABABABABABABABABABABABABABABABABABABABABABABABABABABABABABABABABABABABABABABABABABABABABABAB",
    "AFBCABABABABABABABABABABABABABABABABABABABABABABABABABABABABABABABABABABABABABABABABABABABAB",
    "ABABABABAJHIFKHIHIFLABABABAIHQ1VCCCFFCCFLDMEFCCFbLADBGA1TPTAvMZ1yU1V1WABCCABABABDBACAICBABAB",
    "ABABABABABABABABABABABABABABABABABABABABABABABABABABABABABABABABABABABABABABABABABABABABABAB",
    "AIABAEAx6JABABABABABABABABABABABABABABABABABABABABABABATABABABABABABABABABABABABABA5FABABABA",
    "BABABADABABABABABABABABABABABABABABABABABABABABABABABABABABABABABABAKABABBBABABABAEABACABADA",
    "BABABABABABABABABABEBEBABABABABABABABDBABBDAFABABABAYAyG3BloIGME13TZ1aZ1N5G1J6AKBOBGBB1wC1Y6",
    "BV32O1FndW1FxjK1H"]),
  (["cwcm", "changeswhencasemapped"], .ofSorted <| CharSet.unpack 0 [
    "2NZGZ2GAKWB1EB2LB3FB1BCNCBBAE3OBRG1ABBBABBDBBDBECABBCAHACABBDFFAKB6KA1QDCBDCBAGABCBABTB1UD1G",
    "BEB5CI6JB1LK1M31G1LBAFAC1QCCpW3HCF2bUKF1QCC7DADAQA4J5ZCAB4NCFC1LCFCHBABABAB1EC2ABGBADCBGDDCF",
    "EMFCBGbLADBGA1BAR1FDBvL1Z1xU4IBBBBH3XHDDBM1LBAFAx4C1TS1B5ENC2JJODCCEBYB1DCBEGYBxCA1C3BloIGME",
    "13TZGZ19T3B3S1JE1J4MKBOBGBBBKBOBGBB1uP1YN1Y3PVKV31I2LncQ2LxiE2P"]),
  (["cwl", "changeswhenlowercased"], .ofSorted <| CharSet.unpack 0 [
    "2NZ3XWBG1HABABABABABABABABABABABABABABABABABABABABABABABABABABABACABABABABABABABACABABABABAB",
    "ABABABABABABABABABABABABABABABABABABBBABADBBABBBCCDBBBCDBBBBABABBBACABBBCBABBDAHBBBBBBABABAB",
    "ABABABABACABABABABABABABABACBBABCBABABABABABABABABABABABABABABABABABABABABABABABABABABABABAH",
    "BBBCABDBABABABAbDABADAIAGABCBABBBQBI1JAIABABABABABABABABABABABAFACABBC1Y1WABABABABABABABABAB",
    "ABABABABABABABAJABABABABABABABABABABABABABABABABABABABABABABABABABABABBBABABABABABACABABABAB",
    "ABABABABABABABABABABABABABABABABABABABABABABABABABABABABABABABABABABABABABABABABABABABAC1L33",
    "D1LBAFArU3H2cLAG1QCCcIABABABABABABABABABABABABABABABABABABABABABABABABABABABABABABABABABABAB",
    "ABABABABABABABABABABABABABABABABABABABABABABABABABABABABABABABABABABABABABABABAJABABABABABAB",
    "ABABABABABABABABABABABABABABABABABABABABABABABABABABABABABABABABABABABABABABABABABABAJHIFKHI",
    "HIFLABABABAIHYHIHIHIELELDMELEbLADBGA1TPTAvMZ1yU1V1WABCCABABABDBACAICBABABABABABABABABABABABA",
    "BABABABABABABABABABABABABABABABABABABABABABABABABABABABABABABABABABABABABAIABAEAx6JABABABABA",
    "BABABABABABABABABABABABABABABABABABATABABABABABABABABABABABABABA5FABABABABABABADABABABABABAB",
    "ABABABABABABABABABABABABABABABABABABABABABABABABAKABABBBABABABAEABACABADABABABABABABABABABAB",
    "EBEBABABABABABABABDBABBDAFABABABAYAnuHZ1aZ1N5G1J6AKBOBGBB1wC1Y6BV32O1FndW1FxjK1H"]),
  (["cwt", "changeswhentitlecased"], .ofSorted <| CharSet.unpack 0 [
    "3TZ2GA1PXBHBABABABABABABABABABABABABABABABABABABABABABABABABABABABACABABABABABABABBBABABABAB",
    "ABABABABABABABABABABABABABABABABABABACABABCCABACADAFACADCCACABABACAEACADABACADABAEABBBBBABAB",
    "ABABABABABABBBABABABABABABABABCBABADABABABABABABABABABABABABABABABABABABABADABABABABABABABAB",
    "AIACBBAEABABABABFBBBABBDBBDBECABBCAHACABBDFFAKB6KA1RABADADCSA1B1IBBDCBABABABABABABABABABABAB",
    "EBACACA2A1VBABABABABABABABABABABABABABABABABAJABABABABABABABABABABABABABABABABABABABABABABAB",
    "ABABABACABABABABABABBBABABABABABABABABABABABABABABABABABABABABABABABABABABABABABABABABABABAB",
    "ABABABABABABABABABABABABA1X1M3yEF2bUIBA9EADAQA4KABABABABABABABABABABABABABABABABABABABABABAB",
    "ABABABABABABABABABABABABABABABABABABABABABABABABABABABABABABABABABABABABABABABABABABABABABAB",
    "ABABABABABABGFABABABABABABABABABABABABABABABABABABABABABABABABABABABABABABABABABABABABABABAB",
    "ABABABABABABABABIIFKHIHIFKHIHINCHIHIHIEBBGADCBBIDCBIHKCBBdEA1HPEAwLZ1zQ1VBADBBABABAGACAKABAB",
    "ABABABABABABABABABABABABABABABABABABABABABABABABABABABABABABABABABABABABABABABABABABABABABAB",
    "ABAIABAEAM1LBAFAx4DABABABABABABABABABABABABABABABABABABABABABABATABABABABABABABABABABABABABA",
    "5FABABABABABABADABABABABABABABABABABABABABABABABABABABABABABABABABABABABABABAKABACABABABABAE",
    "AEABBCABABABABABABABABABALABABABABABABABAEABACADAFABABA1AAxCA1C3BloIGME14ZZ1bH1N5G1J5ZKBOBGB",
    "B1xB1Y4VV32O1FndW1FxjM1H"]),
  (["cwu", "changeswhenuppercased"], .ofSorted <| CharSet.unpack 0 [
    "3TZ2GA1PXBHBABABABABABABABABABABABABABABABABABABABABABABABABABABABACABABABABABABABBBABABABAB",
    "ABABABABABABABABABABABABABABABABABABACABABCCABACADAFACADCCACABABACAEACADABACADABAFBBBBBBABAB",
    "ABABABABABBBABABABABABABABABBBBBADABABABABABABABABABABABABABABABABABABABADABABABABABABABABAI",
    "ACBBAEABABABABFBBBABBDBBDBECABBCAHACABBDFFAKB6KA1RABADADCSA1B1IBBDCBABABABABABABABABABABABEB",
    "ACACA2A1VBABABABABABABABABABABABABABABABABAJABABABABABABABABABABABABABABABABABABABABABABABAB",
    "ABABACABABABABABABBBABABABABABABABABABABABABABABABABABABABABABABABABABABABABABABABABABABABAB",
    "ABABABABABABABABABABABA1X1M33C1QCCtGF2bUIBA9EADAQA4KABABABABABABABABABABABABABABABABABABABAB",
    "ABABABABABABABABABABABABABABABABABABABABABABABABABABABABABABABABABABABABABABABABABABABABABAB",
    "ABABABABABABABABGFABABABABABABABABABABABABABABABABABABABABABABABABABABABABABABABABABABABABAB",
    "ABABABABABABABABABABIIFKHIHIFKHIHINC2ABBEABADCBBEADDCBIHKCBBEAcZA1HPEAwLZ1zQ1VBADBBABABAGACA",
    "KABABABABABABABABABABABABABABABABABABABABABABABABABABABABABABABABABABABABABABABABABABABABABA",
    "BABABABAIABAEAM1LBAFAx4DABABABABABABABABABABABABABABABABABABABABABABATABABABABABABABABABABAB",
    "ABABA5FABABABABABABADABABABABABABABABABABABABABABABABABABABABABABABABABABABABABABAKABACABABA",
    "BABAEAEABBCABABABABABABABABABALABABABABABABABAEABACADAFABABA1AAxCA1C3BloIGME14ZZ1bH1N5G1J5ZK",
    "BOBGBB1xB1Y4VV32O1FndW1FxjM1H"]),
  (["dash"], .ofSorted <| CharSet.unpack 0 [
    "1TA1gUA1ZA3wJA13PA27DF2JA1NAPAfAA3aIACA1FBEA1CAhEATA4HA1k8AB1LAKA6NA3xOAcGA"]),
  (["di", "defaultignorablecodepoint"], .ofSorted <| CharSet.unpack 0 [
    "6RApXArOA32WB1qHB3HE26PE1AE1XP4mYA1jyPP9FA6EA3BI1flND5oXHnoxL4dN"]),
  (["dep", "deprecated"], .ofSorted <| CharSet.unpack 0 [
    "cRA1eVA2gTABA28JB2eJFqVBqymKA"]),
  (["dia", "diacritic"], .ofSorted <| CharSet.unpack 0 [
    "3QABA2TAGAEACBjJ6CBHFFRBEAJB9TE8BA2DQB1ABABBBA5EHEB5EBEBDC2P1A3NK2GK1IB4WH1PJQ1B2JAQADD1CA2W",
    "AQA4GAQA4GAQA1VC2IAQAHA4PA4GAQA4GAQA4FBQA4UA4HAMFBA4DANE2XB1BABABAEB2OCBB2KA4IABB1OBEEZGBAKB",
    "rDC10MB1EA5SKJAdJCbGAUHCA1WOCK4AAPA1MI2CB2GALB2OB2MF3EYEAGACC1Y2K3LL1LKhDABCLCNCNCNB3jKCcFAj",
    "MF4BD3RAw4KAMBBA1CB3EBO1H3YC4FBMA1LA5VA1BR2FD1KA3RAMA1KA5TC2ND1ZA3WEJC4YBlnSAtPPaKABA1VA1TB2",
    "PAtKA19NFB1PBIoNCEA6JBlZF1MA1AEfJC2SK1XD7KA1PA2UB4QB2KA2YAJC4AB6WB3CBQAYGDE3LCBBNB3RADA4TB9R",
    "B4WA4OB4LAaJB9YBEA6AA3FASA3DAgFA9YABB3DAgJBXA5qAOc9PA2oAE2HGlSBlAQ3CBhiCDBGBB8hH1TCWkYCDFIHC",
    "G1ED3yW2J7MGeLA2JDtMBsIG4FCBC"]),
  (["emoji"], .ofSorted <| CharSet.unpack 0 [
    "1JAGAFJ4HAEA8mRAMA8IAWA3MFPBeDBMA6KAZKEC7RA8XBKAJA2GDBEJACACBCAEACABBCADADBICFABAFLLBCABBBAS",
    "ACBSFBABBDBFACBEBLBFBCAFBBABBUBFFBDCAEACACFBACABABAGADAGAKBPACAEABAECBALB1WCJAOAOAeIBhVCTB1Z",
    "AEA1bUAMAnDABA3dtQA7UA6EBMBOACJ2XZBBXAUACIVB6S1HC4HCBBCC3ECCBaCB2KLFBXHBCHMACDCAEBNBCAIBJAFC",
    "MCICCABAEAGADAG3H1W2RFHCCEJDABBDACJ8TLEAaX1UBJB7C4IMDJF2DHOCKGI"]),
  (["ecomp", "emojicomponent"], .ofSorted <| CharSet.unpack 0 [
    "1JAGAFJ8pJA8FA1ohRA1uoWZjNE1kADndyQ3R"]),
  (["emod", "emojimodifier"], .ofSorted <| CharSet.unpack 0 [
    "3sqXE"]),
  (["ebase", "emojimodifierbase"], .ofSorted <| CharSet.unpack 0 [
    "afHA8LAQD3hxVA2ICCACC4NBCKVSDAECBCHABAYA7TBEAVAEB6SCDE3FAQCJALAmDACAIHGAJJCC2EA2JBBBBARCBM8V",
    "C1QI"]),
  (["epres", "emojipresentation"], .ofSorted <| CharSet.unpack 0 [
    "9lQB7XDDACAkBBVB1YL1RATANAIBRBFBIAFAVAHBBAEACAHAEB1CA1JABAECBA2JCYAOAxBB1ZAEA3ftEA7UA7IACJ2X",
    "ZBAYAUACEBCVB6S1GMIB2RBVM1QEEMQDAD2SBAB7EC2KNDBXSA1ABNA3I3G1W2RGADCCCEDLBHI8TLEAaX1UBJB7C4IM",
    "DJF2DHOCKGI"]),
  (["extpict", "extendedpictographic"], .ofSorted <| CharSet.unpack 0 [
    "6NAEA8mRAMA8IAWA3MFPBeDBMA3RA2SAZKEC7RA8XBKAJA2GDBFBLB4JK4NCKBABAGADAGAKBPACAEABAECBALE1TCJA",
    "OAOAeIBhVCTB1ZAEA1bUAMAnDABA3dtM9VNC1FA2IFMBOACJS2E1BOKAUACIBDJgRFcFIaF1W4X4ML3H1QMD2EHKF1OH",
    "1E3DM1UBJBgY9W13H"]),
  (["ext", "extender"], .ofSorted <| CharSet.unpack 0 [
    "7BAkQBxUAgZAoGA5HA3LAsYA4XA2jFA2EAnNAfIA2QA5cJA1RE3ZB3PCudUA1mSA11AAWA5HA4EAVBn3VA27KB1lBA1B",
    "AEA1bBAbHA4MBjEC1bJAm2FB19KBBAv0AB1aFAwUC"]),
  (["grbase", "graphemebase"], .ofSorted <| CharSet.unpack 0 [
    "1G3Q1HMBmV4IHCFEGBABTB8PH6JB1LC1XCC1UABACACAJ1AEFRJLAB1TVPB3WIAGBCAE1FCAB1D1D3KLAO1QJGDXEAJA",
    "DAHOBYFABKF1ER1P2F2CBABDIDBCHJC1CBBBHCBCVBGBADDDABBGBCBBANBBCEXFABFEBCVBGBBBBBBECYDBAHJCCBAM",
    "ABIBCBVBGBBBEDDIABBDAPBELHAIBBHCBCVBGBBBEDACAGBCBPBBCERLABFDCBDDBBABBDBDCDLFABBDCBCDAVUGCBHB",
    "CBWBPDADDTCCACBEJHJBKBCBWBJBEDBCABBYBBBEJBCOKBCB1OCABBFCBCBBECBJEZCBBRDXBIBACGJBGGHJCCM1VBBL",
    "HIM1LBBABEBXBABJBBJACEBAJJCD1GXC1ABABABNB1JSAFACE1XHBFBM1L1SEAGACBCYCDDPEMBBCFBOB1NBAFACeMBD",
    "CGBABDC1OBDC1GBDCGBABDCOB2EBDC2OF1CDZG3HCFCpSD3KHRNSDBJROMBCP1ZCAHHBBLIDJGJGKFJG3KHEC1HBAF2R",
    "K1EEDCCEBBFHAD1PCEL1REZGKD2ECBD2DBAJABBIFNJGJGN3I1VKDDHB1CJLC1FEBG2DBACCBAN1VIBFOD2JF1QCKLAN",
    "AHDBFBCCAF7J2MaRCFC1LCFCHBABABAB1EC2ABOBNCFBSCCBIBKFXH1WQBC1ABMD1G2L5JEpPWKV1xRC1FBdFDBF1SBA",
    "FAC2DHBPWJGBGBGBGBGBGBGBG1H3P1IZB3KM8F1A2FGPB3HE3WF1QB3PB3HJ1VBvaQD2CJdJU1UEAK1FC3BCFI7XCBBA",
    "BHVPBCBDBYCEEJG2DI2PKLYMB1LIYLAM1DG1VBBEBCBBMBKEGBYB1OGBCBLCBHBACJC1FB1YBADBCECABAYQCHLFCFCF",
    "JGBGB2HE4MBBBDDJGbxRMWE1W91CeBC4B1MGMEFABXBEBABBBBB4UQhCC2BHA1GPQJW1IBSBDEEB5EE6AC1EDFCFCFCC",
    "DGBGNBCLBZBSBBBOCN1I4SFCE1SD3JBMDA1V1S5B1CD1WQ1AE1JJ1DF1LK1DB1KEN1Q6BCJG1JE1JE1NI1ZLLBOBGBBB",
    "KBOBGBBD1ZMbYJVKHYFB1PBI2RFCAB1RBBDACWB2TII1WSBBF1GD1AFA2M2DETC1UPDBCB1CKIHIH2L1G1KGLJ2BD1CC",
    "1AFZHDMG3C2U2D1YN1YH1PMJG1LIXIB8A1EB1PDACBQC2H1NIVLIWRED1M1BUWJAB2BPGE1DBBCAM1WEBCBBDOYHJJ1J",
    "FAJRI1IBCL1ZJABHEBBPBTLRB1BDBEFBB2LGBABDBOBKG1UBCNJIBBHCBCVBGBBBEDABABDCBCBDAMG1CJBACAB1LBAB",
    "BPABBDABCBB1N2DIBDABUBABC1E1VBBGABBBACACDIJ6K1UBBGDCAC1A1K1YIBBACDLJGMT1QBABBIBGJGT1C1ADABBE",
    "AJW7D1UJACA3W3EMHCACHBBBXBEBBGDBCJJ2SHC1PIDBD1BAK1NGBEHJAGBD1TNACIN2UHJ7A1HOJGIB1LOABFK1CD1F",
    "ZAHACA2XGBBB1LVAJJGFBBB1KEBBABAHJbYSCDJOB1JIBDW3IAP1XNzM3Y4GBEL7N2tK3UN15FRFZ49QFmK7bD1DMCDJ",
    "1uSlWH1EBJE3CBJG1DHAK1VHOKJBGBUFSgQ2F7Q3M3X2WF2DLM2MD1C6jZI1bP1PJ9jRDBGBBBbEPA1DCCAODIfF2gU4",
    "CFMDIHJCACA47K9PGgT6A4L2I9LK1MC2HFCWBH1DE2IV2NDA4STMTM3IJY5F3GB2SBBCACBCDBLBABGB2MBDCHBGB1BB",
    "DBEBADGBdBCbFClP2DD1YHBNBG17W1EGFaB2J5Q1SKGCJEBcI1DS1REJFAhW1BEJ8G1DCKEAiMGBDBBBOB7OCI1W2PHA",
    "EJEBuF2P2Y2I7MDB1ABBBACABJBDBABAGAEABABABCBBBACABABABABABBBACDBGBDBDBABJBQFCBEBQ2ABaK1RE3VMO",
    "COBOB1KK6R2E1CN1REIHBOF5Y11VEQDMD4OE3QGLEAPLE2DIJG1NI1DCLEB2KdBMNCMDJF2DHOCKGIH5QB3X13Q19nB1",
    "G4fTG8NC65PO7zKPnX2mWkV1lY59YF4hF"]),
  (["grext", "graphemeextend"], .ofSorted <| CharSet.unpack 0 [
    "tO4HaPGaD1SBABBBBBA2UK1WUQA3XGCFCBBD1JA1E1A3NK2GIJAYDBIBCBE1RC2HI1QXB1F2DABAEHEADGKB1DA2GABA",
    "CDIAJAKB1AACB2FAEBEBCCDA1EBDALB2FAEEBBEAUBWFBA2GABBBDIAHCKB1EA2HABAMAJA1OADA2DABCFCBDHBLB1DA",
    "2GACBBADCBDHBLB1CB2FBBACDIAJAKB1DA2UAEACCBAIA3DACGMH3UACILG2VB1BABABA2DNBEBBFKB1JJA3YDBFBBCB",
    "ZBECQDNACBGAPArBC10KD1CC1DB1EB2MBBGIACKJA1TCBA4NB1IA4OCEBJAGC8LBCA2GABGBABACHGJCA1W1E1XD1WJE",
    "C1MIMB1GDCF2EABBDABE2EHCB5WCBMBGEAGADB7Q2LkEA7N1G3aCC5LA3S1FlIF4BBw8EDBJ1GB3CBaMADAEAZBFA5VB",
    "1ARNA1MHZKBA1SC1WACDCBCA1KA2PFCBCBMAIA1VA1ZABCCBFBBA1QBIA9EACAEAlnSAsJPQPeCBnHA8SA5TE1sGCBBF",
    "D1OCEA6JBmBD2NEcFB3BD2SK1XD4TA2CO1PACBKC1XDCBHA2JC1KEBH2KAMB2AIBAIDCA3RCCDGACA6BADHVB2FBBABA",
    "MAJAOGDE2PACFBACABCECBAOB3HHCCBAXA3DACFBACABBBB9BACDGBBB1BB3HHCABB4CABACH3XABACDBE9ZIBB9LAKD",
    "EA5ODCBEA1GJ1OFCDIAJFCC1UMBBfQGBFBA3EVCGBBBB4SFDABBBGBA2UBDABAdJBLB2AEFCXA5pTAGOc8YLDC2oAE2H",
    "G14IA2LD3DALBkyXB50Z1TCWkWEDFIHCG1ED5SC24D2CE1XIAOAWEBO1gIGBQCGBBBE3WA6EGeLA2JDjOD9UBsIG4FGn",
    "igF3R4Y9F"]),
  (["grlink", "graphemelink"], .ofSorted <| CharSet.unpack 0 [
    "2jPA4XA4XA4XA4XA4XA4XA4XA4FBQA4UA4HA4XA7TA6YB1vLB1EA6BApDA8TA3XB2SB4sTAxiKA1LA5VA5MA4EAbXA9M",
    "ApsRA1nIA1PAOA2FA4RB5JA4MA6YA3UA4YC4JA4XA9SA4XA4OA4MAaJA9ZB6FA3FASA3DAgFAaAB3DAgJBi1CA"]),
  (["hex", "hexdigit"], .ofSorted <| CharSet.unpack 0 [
    "1WJHF1AF1xnLJHF1AF"]),
  (["hyphen"], .ofSorted <| CharSet.unpack 0 [
    "1TA4XA1bWA51ZA27DB3uBAsLA1k6LA6NA3JA"]),
  (["idsb", "idsbinaryoperator"], .ofSorted <| CharSet.unpack 0 [
    "d4ABCJjDA"]),
  (["idst", "idstrinaryoperator"], .ofSorted <| CharSet.unpack 0 [
    "d4CB"]),
  (["idsu", "idsunaryoperator"], .ofSorted <| CharSet.unpack 0 [
    "d4OB"]),
  (["idcompatmathcontinue"], .ofSorted <| CharSet.unpack 0 [
    "6WBFA8oGADKBOeHAEAWA3bfEAZA1FAZA1FAZA1FAZA1FAZA"]),
  (["idcompatmathstart"], .ofSorted <| CharSet.unpack 0 [
    "9aWAEAWA3bfEAZA1FAZA1FAZA1FAZA1FAZA"]),
  (["idc", "idcontinue"], .ofSorted <| CharSet.unpack 0 [
    "1WJHZEABZ1VAKABACAFWB1EBhPELOEHABAR4MBBCDBAGEBABTB3EB5IBEC6JB1LCAG1OI1SBABBBBBAI1AED1DKF2VE3",
    "XBHCJBSCAQ2GC3WO2BEACAC1TS1BEKFXBFI2WB4YCJBSBHCBCVBGBADDCICBCDIAEBBECLKABACCBFEBCVBGBBBBBBCA",
    "BEEBCCDAHDBAHPLCBIBCBVBGBBBECJBCBCCAPDCJJGBCBHCBCVBGBBBECICBCCHCEBBECJBAQBBFDCBDDBBABBDBDCDL",
    "EEDCBDCAGAOJQMBCBWBPCIBCBDHBBCCACDCJQDBHBCBWBJBECIBCBDHBGBBDCJBCMMBCB1YBCBEFDHECJKFBCBRDXBIB",
    "ACGDAEFBABHGJCBN2FFOBJ1NBBABEBXBABWCEBABGBJCD1GAXBGJLABABAEJB1JETBRB1JJA2F2VG2ZC1LBAFAC1QBcU",
    "BDCGBABDC1OBDC1GBDCGBABDCOB2EBDC2OCCJIOPQ3HCFDnVCQBZF2WDKHVJVLTMMBCBBM3FDAEBCJ1HCBKG3KH1QF2R",
    "K1EBLELK1NCEL1REZGK1L1BE2KB1CCKGJNAINBP1X2YDJRIM4LM2DIJD1WCKF1QCCQCB1MFkNCFC1LCFCHBABABAB1EC",
    "2ABGBADCBGDDCFEMFCBGPB1XBTA1CANAQM1ZMEADLRAEACJBACFGABABABPCDFEEAR1O2vB8UGIM1LBAFAC2DHAPXJGB",
    "GBGBGBGBGBGBGB1FjXCZOBECEE3HCGB3QF1QB3PR1F1WPjS71N2MnoE2P1TCaID1BU1VEJB4K1LIC3YC2OCBBABHV2BE",
    "AT1ZM2RKJGXDAB1WC1JM1CD2MOKG1EB2CJNCJGWD2UYCCPCEKFCFCFJGBGB1QBNG4SBBCJGbxRMWE1W91CeBC4B1MGME",
    "FLBMBEBABBBBB4D1HdYS2LC2B1OLEPQPDBYC1GEB5ETJHZEABZK3LDFCFCFCC1JLBZBSBBBOCN1I4S2R2A5GA5A1CD1W",
    "PA1F1FN1DF1QF1DC1JEHBE1Q6BCJG1JE1JE1NI1ZMKBOBGBBBKBOBGBBD1ZMbYJVKHYFB1PBI2RFCAB1RBBDACWKWJ1E",
    "2NSBBKVKZ2S2DGB2MDBBFHBCB1CCCEA1G1CD1C1JHB1DZ2BKVKSNR4G2U2D1YN1YN1NIJG1LDEBW9Q1PBBDBQC2D1GKA",
    "I1G1FV1QU1BWJ2S1FPJ2HHANYHJG2ABJEDI1JCAJ2QEDBMBA1JRB1KGD2KGBABDBOBJH2GFJGDBHCBCVBGBBBEBJCBCC",
    "CAGAFGCGDELJBACAB1LBJBACABDBHNB1D2WFJED1E2RBAIJ6K2BCIXF1I2MDALJ1M2EHJGT1C1ACOEJGG7D2G3X2VVHC",
    "ACHBBB1DBBCIMJ2SHC1TCHBB1B2KIAI2VDAS2U7R1GPJGIB1SBIPJY1DCVBN2VGBBB1RDABBBIIJGFBBB1KBBBFHJbYW",
    "JQB1ODENK3HA3BzL3Y4GR7N2tK3SP15FQVK49QFmK7bD2F1uSlWH1EBJG3ABJG1DCEL2CJDMJJUFSgQ1SDJ7Q2L4Y2WE",
    "2EHQ2MBBBLBO6jZI1bP1PJ9jRDBGBBBbEPA1DCCAODIfF2gU4CFMDIHJDB4gRJjY1TCWkWEDFIHCG1ED5SChB3GB2SBB",
    "CACBCDBLBABGB2MBDCHBGB1BBDBEBADGBdBCYBYB1EBYB1EBYB1EBYB1EBYBHC1XjS2CE1XIAOAWEBO16M1EGF8FGBQC",
    "GBBBEF2J1HA4I1SDNCJEAcJ1ER2FiC1P8G1QiRGBDBBBOB7OLG1P2XEJ19UDB1ABBBACABJBDBABAGAEABABABCBBBAC",
    "ABABABABABBBACDBGBDBDBABJBQFCBEBQ3mAJ13Q19nB1G4fTG8NC65PO7zKPnX2mWkV1lY59YF4hFl4pG9F"]),
  (["ids", "idstart"], .ofSorted <| CharSet.unpack 0 [
    "2NZGZ1VAKAEAFWB1EBhPELOEHABA4ZEBBCDBAGABCBABTB3EB5II6JB1LCAG1O2T1AED1T1Q1JBB3UBAPBHBKCCAQAB1",
    "D1D3KLAY1GJBEAFVEAJADAXYHKFXBFR1P2G2BDASAHJPPEHCBCVBGBADDDAQANBBCOBKAIFEBCVBGBBBBBB1FDBATCQI",
    "BCBVBGBBBEDASAPBXALHCBCVBGBBBEDA1EBBCPARABFDCBDDBBABBDBDCDLWA2AHBCBWBPDA1ACCACB1EAEHBCBWBJBE",
    "DA1FBBBPBRIBCB1OCAQAFCICYFFRDXBIBACG2G1VBBMG2GBBABEBXBABJBBJACEBAVD1GA2LHB1J1BE4L1QUAQFEDDAD",
    "BHCEMMAR1LBAFAC1QBcUBDCGBABDC1OBDC1GBDCGBABDCOB2EBDC2O1LPQ3HCFDnVCQBZF2WDKHRNSOROMBCP1Z1JAEA",
    "2P3KH1OBAF2RK1E1X1DCEL1REZ2CWJ2A3EA3P1URH2C1DNBK1R1A1J1PCK1JCKF1QCC1PDBFBBDAF7J2MaRCFC1LCFCH",
    "BABABAB1EC2ABGBADCBGDDCFEMFCBG4MANAQM3XAEACJBACFGABABABPCDFEEAR1O2vB8UGDDBM1LBAFAC2DHAQWJGBG",
    "BGBGBGBGBGBGlECZIHECEE3HEEB3LBDF1QB3PR1F1WPjS71N2MnoE2P1TCaIDPKBU1UQ1EC3B1NIC3YC2OCBBABHVPBC",
    "BDBW1D1ZO1X2KFDABBL1BKWZ1CH1U1CAQEBJKEB1OXCBHUWDAD1XBADBCECABAYCCKHCMFCFCFJGBGB1QBNG4K1DbxRM",
    "WE1W91CeBC4B1MGMEFABJBMBEBABBBBB4D1HdYS2LC2B1OL4MEB5E1KZGZL3KDFCFCFCC1JLBZBSBBBOCN1I4S2R2AaH",
    "1CD1W1V1FN1DF1LK1DC1JEHBE1Q6BS1JE1JE1NI1ZMKBOBGBBBKBOBGBBD1ZMbYJVKHYFB1PBI2RFCAB1RBBDACWKWJ1",
    "E2NSBBKVKZ2S2DGB2MAPDBCB1C1Q1CD1C1JHB1B1B2BKVKSNR4G2U2D1YN1YN1J1M1BJW9Q1PGBQC2H1CKAIV1QR1UU1",
    "BWM2A2FBCAN1S1GY1A1J1DACAI1IDAM1VODVABA1JRBYTB2LGBABDBOBJH1U1MHCBCVBGBBBEDASAME1EJBACAB1LBAZ",
    "ABA1S2ASDUC1E1VUBBA7C1U1PD1K1VUA2H1QNA2T1A1LG7D1R4M2L1FHCACHBBBXPABA3QHC1MQABA1CAK1NHAVAL1TT",
    "AS2U7R1G1FIB1KRA1X1D4IGBBB1LVAZFBBB1FOAcPSPABMB1H4UA3BzL3Y4GR7N2tK3SP15FRFZ49QFmK7bD1D1vUlWH",
    "1ER3AR1DS1VQD1FUFSgQ1S8D2L4Y2WFA2OM2MBBA1C6jZI1bP1PJ9jRDBGBBBbEPA1DCCAODIfF2gU4CFMDIHJ6eK3GB",
    "2SBBCACBCDBLBABGB2MBDCHBGB1BBDBEBADGBdBCYBYB1EBYB1EBYB1EBYB1EBYBH1yY1EGFaB2J5Q1SKGQAcJ1DS1Ri",
    "Q1B8U1DCAjBGBDBBBOB7O2H2PHA1aIDB1ABBBACABJBDBABAGAEABABABCBBBACABABABABABBBACDBGBDBDBABJBQFC",
    "BEBQ4qA19nB1G4fTG8NC65PO7zKPnX2mWkV1lY59YF4hF"]),
  (["ideo", "ideographic"], .ofSorted <| CharSet.unpack 0 [
    "d4WBZIOC11D71N2MmfJocIeBC4Bw0KA1B6jZI1bP1PJ9yLfFl2I19nB1G4fTG8NC65PO7zKPnX2mWkV1lY59YF4hF"]),
  (["joinc", "joincontrol"], .ofSorted <| CharSet.unpack 0 [
    "8rOB"]),
  (["loe", "logicalorderexception"], .ofSorted <| CharSet.unpack 0 [
    "3wIE4TE2zSCCA13nMBCABB"]),
  (["lower", "lowercase"], .ofSorted <| CharSet.unpack 0 [
    "3TZ1VAKAEA1KXBHBABABABABABABABABABABABABABABABABABABABABABABABABABABABBBABABABABABABABBBABAB",
    "ABABABABABABABABABABABABABABABABABABABABACABABCCABACADBEACADCCACABABACABBBACADABACBCCGACACAB",
    "ABABABABABABABBBABABABABABABABABBCABADABABABABABABABABABABABABABABABABABABABABABABABABABABAB",
    "ABABGCACBBAEABABABAB2QB1JHB1EE3SA1RABADACDSA1B1IBBDCBABABABABABABABABABABABEBACACB1Z1VBABABA",
    "BABABABABABABABABABABABABABAJABABABABABABABABABABABABABABABABABABABABABABABABABABACABABABABA",
    "BABBBABABABABABABABABABABABABABABABABABABABABABABABABABABABABABABABABABABABABABABABABABABABA",
    "BABABABA1W1O33B1QBDtGF2bUIBA4N7J2NABABABABABABABABABABABABABABABABABABABABABABABABABABABABAB",
    "ABABABABABABABABABABABABABABABABABABABABABABABABABABABABABABABABABABABABABABABABABABABABABIB",
    "ABABABABABABABABABABABABABABABABABABABABABABABABABABABABABABABABABABABABABABABABABABABABABAB",
    "ABABIIFKHIHIFKHIHINCHIHIHIEBBGADCBBIDCBIHKCBB4RANAQM4FADBDA1BAEAEACBIDEA1HPEAwLZ1zQ1VBADBBAB",
    "ABAEABBBHDABABABABABABABABABABABABABABABABABABABABABABABABABABABABABABABABABABABABABABABABAB",
    "ABABABABABABABABBHABAEAM1LBAFAx4DABABABABABABABABABABABABABABABABABABABABABABATABABABABABABA",
    "BABABABABABABC5DABABABABABABCBABABABABABABABABABABABABABABABABABABABABABABABABABABABABABABJB",
    "ABACABABABABAEABACABCBABABABABABABABABABAFAFABABABABABABABAEABACADABABABABABAWCBABCvP1QBNG3B",
    "loIGME14ZZ1bH1N5G1J5ZKBOBGBBhJACCB1PBI1dL1Y4VV32O1FndW1FrsKZ1AGBR1AZ1ADBABGBK1AZ1AZ1AZ1AZ1AZ",
    "1AZ1AZ1AZ1A1B1CYBF1AYBF1AYBF1AYBF1AYBFBA1yYJBTGFaB2J2dS1H"]),
  (["math"], .ofSorted <| CharSet.unpack 0 [
    "1RAQC1FA1DABA1TAEA1LA1FAsACCA1ABCCkHC74NA1BCLADANAODVELE2NMEADBEESAEACJBACFGADBCBBCBFDNBA2QX",
    "BFBBEBE1FBAGBOaHIDUB3MA1E1ABAYALGhDBMJEFEBCBDEOABACFLHFB2FABA1DDJCcY2L9WjR1WUCF1kuQAvRFBA6GA",
    "QC1DABA1DABA5BAGD3qFB1i9W3GB2SBBCACBCDBLBABGB2MBDCHBGB1BBDBEBADGBdBCbFC1X60QDB1ABBBACABJBDBA",
    "BAGAEABABABCBBBACABABABABABBBACDBGBDBDBABJBQFCBEBQ2AB"]),
  (["mcm", "modifiercombiningmark"], .ofSorted <| CharSet.unpack 0 [
    "1qIBCA5BAGADBiNBBCDA1FA"]),
  (["nchar", "noncharactercodepoint"], .ofSorted <| CharSet.unpack 0 [
    "1xfC1FkGB1y0OB1y0OB1y0OB1y0OB1y0OB1y0OB1y0OB1y0OB1y0OB1y0OB1y0OB1y0OB1y0OB1y0OB1y0OB1y0OB"]),
  (["oalpha", "otheralphabetic"], .ofSorted <| CharSet.unpack 0 [
    "wFA1DMmENBABBBBBA2UK1WMBGQA3XGEDCBEA1JA1EP3YK3XBDIBCBD4CA2ILDGGT2CBCOBBFCKB1DC2GGCBCBKAKB1DC",
    "2GEEBCBEA1EBDALC2GHBCBBVBWCEC2GGCBCBJBKB1EA2HEDCBCKA1OE2FGBCBCIBLB1DC2GGBCBCIBLBPAMD2GGBCBCK",
    "AKB1DC2XFBABHSB2JACGSA3VACFBBQA6HSJKB1J4GLBACDXDECBCCGDDNLBAKD1rOB1EB1EB1EB2OS7GB1IA4OLEI8OE",
    "2FJCT2WBLC1XE1WO2IC1EICB2FK1YSfW1H1uN1Z2gG1FwyAH1IBdQAIAXE3KB1YPBA2FA1ME1CL1TD1WL1LA2PNMAIB1",
    "TC1YABCCBFA1SEFA9DHlnVA2aDE1sGCBBFDuID2NAcJB3BA9ZC2BN1TBLC1TIJA2JC1KLSB2FC1WMOB3OICAGACA6BJX",
    "D2GGCBCBKAKB3GIBACABDBB3ZMBC4CR9DGCG1DB3EOBA4CK3ZN9XM9NFBBCBDABA5MGCFEA1CJ1QEBDSK1UNfRHBG3FV",
    "BN4SFDABBBCBADA2OEBBBDdKDJBBA1WGDCi0NQ3vCAB2CHD3PBkyYA9oJGBQCGBBBE3WA2dVA25WZGZGZ"]),
  (["odi", "otherdefaultignorablecodepoint"], .ofSorted <| CharSet.unpack 0 [
    "wPA3uLB1qHB2dNA4nIA1kePA3BIpa8HAB1D3S4X9G3uL"]),
  (["ogrext", "othergraphemeextend"], .ofSorted <| CharSet.unpack 0 [
    "2nYAYAdUAYA3YAYA8YABAEBBBJB3ZAYA4PAPA2iRA1EA13KAFABAFB3XA2TB14IA4eVBx4TA4EAnhLB4yMA4MAaEAOAJ",
    "A3SAJACABCFA8QAMA9HAaCAoJAMA1nFAm2KBqnNBGFnoyZ3R"]),
  (["oidc", "otheridcontinue"], .ofSorted <| CharSet.unpack 0 [
    "7BArRA4cJI1rCA1oZB4mRA1kgJA"]),
  (["oids", "otheridstart"], .ofSorted <| CharSet.unpack 0 [
    "6pLB2cJAVA47WB"]),
  (["olower", "otherlowercase"], .ofSorted <| CharSet.unpack 0 [
    "6OAPAjHIHB1EE3SA2AA3oZA3bZ2KNA1I1KqNANAQM8DPwQZ22OBxeKB8CA4ZCDBxIDJAp6SACCB1PBI1n7H2J"]),
  (["omath", "othermath"], .ofSorted <| CharSet.unpack 0 [
    "3QAxXCCA1ABCB7oYA1BCLA1GDYBOB2NMEADBEESAEACJBADEGADBCBBCBFDDFE2XECDBBBBBABECBEBERCBBABGBAGBb",
    "ED6MBBAYARAhDBMIFEFBCBDEOABACFYB2FABA1DDJBdEB1FJfNV2LD1GB1m3FABAEA8DABA1m6V3GB2SBBCACBCDBLBA",
    "BGB2MBDCHBGB1BBDBEBADGBdBCYBYB1EBYB1EBYB1EBYB1EBYBHC1X60QDB1ABBBACABJBDBABAGAEABABABCBBBACAB",
    "ABABABABBBACDBGBDBDBABJBQFCBEBQ"]),
  (["oupper", "otheruppercase"], .ofSorted <| CharSet.unpack 0 [
    "94QPwGZ3hwYZGZGZ"]),
  (["patsyn", "patternsyntax"], .ofSorted <| CharSet.unpack 0 [
    "1HOKG1ADBA1AD1IGBABBBABBEAEADAXA1FA8iEXIOCSBJbTrR6EoF1E17NjS4XeVCEYPA1k2ZBaBB"]),
  (["patws", "patternwhitespace"], .ofSorted <| CharSet.unpack 0 [
    "JESA3WA8mMBYB"]),
  (["pcm", "prependedconcatenationmark"], .ofSorted <| CharSet.unpack 0 [
    "1nCF8HA1XAeUB3CA205YAPA"]),
  (["qmark", "quotationmark"], .ofSorted <| CharSet.unpack 0 [
    "1IAEA5BAPA8kUHZB3uDAhPDNC1kdPD7HAEA3MB"]),
  (["radical"], .ofSorted <| CharSet.unpack 0 [
    "cpWZB3KM8F"]),
  (["ri", "regionalindicator"], .ofSorted <| CharSet.unpack 0 [
    "3s6KZ"]),
  (["sterm", "sentenceterminal"], .ofSorted <| CharSet.unpack 0 [
    "1HAMAQA1gBA5RC6YA1RC9MA2JABADBbHB1vWBuKAEBtTA7QB6BB1TAFAcCBdQD6GBKBCB1DC7FB2NBzWAXBJC3gXCbUA",
    "NAWBgNAvzWAaKB8TADAeSB3IB3RA5WB5RC5OB9PAmgWACB2HADB6NAMAQA2NA2zWB1dDE1SD7HB4ND4XC4ZBGAQB3KBB",
    "B4EAbMB4NBeJBFO4BB9PCjXABA9RB3JBgEBqQB2WBkkBB5DA2NBLAlHBbKAlcGA86MA"]),
  (["sd", "softdotted"], .ofSorted <| CharSet.unpack 0 [
    "4BB7OAaVA1EA2AAUAcIA3UABA6uNA1ZANADA5CA6BAgFA8GB32GA37vHB1YB1YB1YB1YB1YB1YB1YB1YB1YB1YB1YB1Y",
    "B2bYAbTB1AA"]),
  (["term", "terminalpunctuation"], .ofSorted <| CharSet.unpack 0 [
    "1HAKABALBDAvYAIAjTA2FA2UAOABC6YA1RKBA9BB2CFBH1FAaBB1cUB6QAEFbZBuJHtTA4UC2TB6BCDA1NDCBcCBdQD6",
    "GBKBBC1DC7FE2KBzWAXBJC3gXCbUANAEAKABBDBgMBvzVBaJC8TEeSB3IB3RA5VC5RC4XAQB9PAmgWACB2FCBD6NAKAB",
    "ALBDA2NACA15QA1WA18OA7RAbYB5WF2QF3LD10QE1SD7HG4ID4XC4ZBGAQB3KE4EAbMB4NCMBdUDDO4BB9PCjXABA9RB",
    "3JBEBfYC1TAoVB2WB1eXEj4ZB5DA2NCKAlHBbJBlcGA86LD"]),
  (["uideo", "unifiedideograph"], .ofSorted <| CharSet.unpack 0 [
    "e8A71N2MmfJomSBBABBKABABBCC1zmC19nB1G4fTG8NC65PO7zKPnX4tQ59YF4hF"]),
  (["upper", "uppercase"], .ofSorted <| CharSet.unpack 0 [
    "2NZ3XWBG1HABABABABABABABABABABABABABABABABABABABABABABABABABABABACABABABABABABABACABABABABAB",
    "ABABABABABABABABABABABABABABABABABABBBABADBBABBBCCDBBBCDBBBBABABBBACABBBCBABBDAHACACACABABAB",
    "ABABABABACABABABABABABABABACACABCBABABABABABABABABABABABABABABABABABABABABABABABABABABABABAH",
    "BBBCABDBABABABAbDABADAIAGABCBABBBQBI1JACCDABABABABABABABABABABABAFACABBC1Y1WABABABABABABABAB",
    "ABABABABABABABABAJABABABABABABABABABABABABABABABABABABABABABABABABABABABBBABABABABABACABABAB",
    "ABABABABABABABABABABABABABABABABABABABABABABABABABABABABABABABABABABABABABABABABABABABABAC1L",
    "33D1LBAFArU3H2cLAG1QCCcIABABABABABABABABABABABABABABABABABABABABABABABABABABABABABABABABABAB",
    "ABABABABABABABABABABABABABABABABABABABABABABABABABABABABABABABABABABABABABABABABAJABABABABAB",
    "ABABABABABABABABABABABABABABABABABABABABABABABABABABABABABABABABABABABABABABABABABABABAJHIFK",
    "HIHIFLABABABAIH2UDMDMDMELDaCAEADCCCCADEGABABABDCDKBFA1APTAvMZ1yU1V1WABCCABABABDBACAICBABABAB",
    "ABABABABABABABABABABABABABABABABABABABABABABABABABABABABABABABABABABABABABABABABABABABABABAI",
    "ABAEAx6JABABABABABABABABABABABABABABABABABABABABABABATABABABABABABABABABABABABABA5FABABABABA",
    "BABADABABABABABABABABABABABABABABABABABABABABABABABABABABABABABABAKABABBBABABABAEABACABADABA",
    "BABABABABABABABABEBEBABABABABABABABDBABBDAFABABABAYAnuHZ1aZ1N5G1J6AKBOBGBB1wC1Y6BV32O1FndW1F",
    "rsQZ1AZ1AZ1AABBCACBCDBH1AZ1ABBDCHBG1BBBDBEBADG1BZ1AZ1AZ1AZ1AZ1AZ1EY1HY1HY1HY1HY1HA4pL1H27IZG",
    "ZGZ"]),
  (["vs", "variationselector"], .ofSorted <| CharSet.unpack 0 [
    "6kTCBA1qwAPpb0Y9F"]),
  (["space", "wspace", "whitespace"], blank),
  (["xidc", "xidcontinue"], .ofSorted <| CharSet.unpack 0 [
    "1WJHZEABZ1VAKABACAFWB1EBhPELOEHABAR4MBBDCBAGEBABTB3EB5IBEC6JB1LCAG1OI1SBABBBBBAI1AED1DKF2VE3",
    "XBHCJBSCAQ2GC3WO2BEACAC1TS1BEKFXBFI2WB4YCJBSBHCBCVBGBADDCICBCDIAEBBECLKABACCBFEBCVBGBBBBBBCA",
    "BEEBCCDAHDBAHPLCBIBCBVBGBBBECJBCBCCAPDCJJGBCBHCBCVBGBBBECICBCCHCEBBECJBAQBBFDCBDDBBABBDBDCDL",
    "EEDCBDCAGAOJQMBCBWBPCIBCBDHBBCCACDCJQDBHBCBWBJBECIBCBDHBGBBDCJBCMMBCB1YBCBEFDHECJKFBCBRDXBIB",
    "ACGDAEFBABHGJCBN2FFOBJ1NBBABEBXBABWCEBABGBJCD1GAXBGJLABABAEJB1JETBRB1JJA2F2VG2ZC1LBAFAC1QBcU",
    "BDCGBABDC1OBDC1GBDCGBABDCOB2EBDC2OCCJIOPQ3HCFDnVCQBZF2WDKHVJVLTMMBCBBM3FDAEBCJ1HCBKG3KH1QF2R",
    "K1EBLELK1NCEL1REZGK1L1BE2KB1CCKGJNAINBP1X2YDJRIM4LM2DIJD1WCKF1QCCQCB1MFkNCFC1LCFCHBABABAB1EC",
    "2ABGBADCBGDDCFEMFCBGPB1XBTA1CANAQM1ZMEADLRAEACJBACFGABABABPCDFEEAR1O2vB8UGIM1LBAFAC2DHAPXJGB",
    "GBGBGBGBGBGBGB1FjXCZOBECEE3HCBCCB3QF1QB3PR1F1WPjS71N2MnoE2P1TCaID1BU1VEJB4K1LIC3YC2OCBBABHV2",
    "BEAT1ZM2RKJGXDAB1WC1JM1CD2MOKG1EB2CJNCJGWD2UYCCPCEKFCFCFJGBGB1QBNG4SBBCJGbxRMWE1W91CeBC4B1MG",
    "MEFLBMBEBABBBBB4D1H5IG8JS2LC2B1OJGPQPDBYC1HABADABABABAB4VTJHZEABZK3LDFCFCFCC1JLBZBSBBBOCN1I4",
    "S2R2A5GA5A1CD1WPA1F1FN1DF1QF1DC1JEHBE1Q6BCJG1JE1JE1NI1ZMKBOBGBBBKBOBGBBD1ZMbYJVKHYFB1PBI2RFC",
    "AB1RBBDACWKWJ1E2NSBBKVKZ2S2DGB2MDBBFHBCB1CCCEA1G1CD1C1JHB1DZ2BKVKSNR4G2U2D1YN1YN1NIJG1LDEBW9",
    "Q1PBBDBQC2D1GKAI1G1FV1QU1BWJ2S1FPJ2HHANYHJG2ABJEDI1JCAJ2QEDBMBA1JRB1KGD2KGBABDBOBJH2GFJGDBHC",
    "BCVBGBBBEBJCBCCCAGAFGCGDELJBACAB1LBJBACABDBHNB1D2WFJED1E2RBAIJ6K2BCIXF1I2MDALJ1M2EHJGT1C1ACO",
    "EJGG7D2G3X2VVHCACHBBB1DBBCIMJ2SHC1TCHBB1B2KIAI2VDAS2U7R1GPJGIB1SBIPJY1DCVBN2VGBBB1RDABBBIIJG",
    "FBBB1KBBBFHJbYWJQB1ODENK3HA3BzL3Y4GR7N2tK3SP15FQVK49QFmK7bD2F1uSlWH1EBJG3ABJG1DCEL2CJDMJJUFS",
    "gQ1SDJ7Q2L4Y2WE2EHQ2MBBBLBO6jZI1bP1PJ9jRDBGBBBbEPA1DCCAODIfF2gU4CFMDIHJDB4gRJjY1TCWkWEDFIHCG",
    "1ED5SChB3GB2SBBCACBCDBLBABGB2MBDCHBGB1BBDBEBADGBdBCYBYB1EBYB1EBYB1EBYB1EBYBHC1XjS2CE1XIAOAWE",
    "BO16M1EGF8FGBQCGBBBEF2J1HA4I1SDNCJEAcJ1ER2FiC1P8G1QiRGBDBBBOB7OLG1P2XEJ19UDB1ABBBACABJBDBABA",
    "GAEABABABCBBBACABABABABABBBACDBGBDBDBABJBQFCBEBQ3mAJ13Q19nB1G4fTG8NC65PO7zKPnX2mWkV1lY59YF4h",
    "Fl4pG9F"]),
  (["xids", "xidstart"], .ofSorted <| CharSet.unpack 0 [
    "2NZGZ1VAKAEAFWB1EBhPELOEHABA4ZEBBDCBAGABCBABTB3EB5II6JB1LCAG1O2T1AED1T1Q1JBB3UBAPBHBKCCAQAB1",
    "D1D3KLAY1GJBEAFVEAJADAXYHKFXBFR1P2G2BDASAHJPPEHCBCVBGBADDDAQANBBCOBKAIFEBCVBGBBBBBB1FDBATCQI",
    "BCBVBGBBBEDASAPBXALHCBCVBGBBBEDA1EBBCPARABFDCBDDBBABBDBDCDLWA2AHBCBWBPDA1ACCACB1EAEHBCBWBJBE",
    "DA1FBBBPBRIBCB1OCAQAFCICYFFRDXBIBACG2G1VBANG2GBBABEBXBABJBAKACEBAVD1GA2LHB1J1BE4L1QUAQFEDDAD",
    "BHCEMMAR1LBAFAC1QBcUBDCGBABDC1OBDC1GBDCGBABDCOB2EBDC2O1LPQ3HCFDnVCQBZF2WDKHRNSOROMBCP1Z1JAEA",
    "2P3KH1OBAF2RK1E1X1DCEL1REZ2CWJ2A3EA3P1URH2C1DNBK1R1A1J1PCK1JCKF1QCC1PDBFBBDAF7J2MaRCFC1LCFCH",
    "BABABAB1EC2ABGBADCBGDDCFEMFCBG4MANAQM3XAEACJBACFGABABABPCDFEEAR1O2vB8UGDDBM1LBAFAC2DHAQWJGBG",
    "BGBGBGBGBGBGlECZIHECEE3HGCB3LBDF1QB3PR1F1WPjS71N2MnoE2P1TCaIDPKBU1UQ1EC3B1NIC3YC2OCBBABHVPBC",
    "BDBW1D1ZO1X2KFDABBL1BKWZ1CH1U1CAQEBJKEB1OXCBHUWDAD1XBADBCECABAYCCKHCMFCFCFJGBGB1QBNG4K1DbxRM",
    "WE1W91CeBC4B1MGMEFABJBMBEBABBBBB4D1H5IG8JS2LC2B1OJ4PABADABABABAB4V1KZGZL2DC1EDFCFCFCC1JLBZBS",
    "BBBOCN1I4S2R2AaH1CD1W1V1FN1DF1LK1DC1JEHBE1Q6BS1JE1JE1NI1ZMKBOBGBBBKBOBGBBD1ZMbYJVKHYFB1PBI2R",
    "FCAB1RBBDACWKWJ1E2NSBBKVKZ2S2DGB2MAPDBCB1C1Q1CD1C1JHB1B1B2BKVKSNR4G2U2D1YN1YN1J1M1BJW9Q1PGBQ",
    "C2H1CKAIV1QR1UU1BWM2A2FBCAN1S1GY1A1J1DACAI1IDAM1VODVABA1JRBYTB2LGBABDBOBJH1U1MHCBCVBGBBBEDAS",
    "AME1EJBACAB1LBAZABA1S2ASDUC1E1VUBBA7C1U1PD1K1VUA2H1QNA2T1A1LG7D1R4M2L1FHCACHBBBXPABA3QHC1MQA",
    "BA1CAK1NHAVAL1TTAS2U7R1G1FIB1KRA1X1D4IGBBB1LVAZFBBB1FOAcPSPABMB1H4UA3BzL3Y4GR7N2tK3SP15FRFZ4",
    "9QFmK7bD1D1vUlWH1ER3AR1DS1VQD1FUFSgQ1S8D2L4Y2WFA2OM2MBBA1C6jZI1bP1PJ9jRDBGBBBbEPA1DCCAODIfF2",
    "gU4CFMDIHJ6eK3GB2SBBCACBCDBLBABGB2MBDCHBGB1BBDBEBADGBdBCYBYB1EBYB1EBYB1EBYB1EBYBH1yY1EGFaB2J",
    "5Q1SKGQAcJ1DS1RiQ1B8U1DCAjBGBDBBBOB7O2H2PHA1aIDB1ABBBACABJBDBABAGAEABABABCBBBACABABABABABBBA",
    "CDBGBDBDBABJBQFCBEBQ4qA19nB1G4fTG8NC65PO7zKPnX2mWkV1lY59YF4hF"])]

end Tinct.Unicode
