import Tinct.CharSet
import Tinct.Unicode.Word

/-!
# General categories

One set for each general category of the Unicode character database, version 16.0; the groups
of categories (`letter`, `mark`, …) are their unions. Surrogates are no characters, so their
category has no set.
-/

namespace Tinct.Unicode

/-- The category Cc, control. -/
def control : CharSet :=
  .ofSorted <| CharSet.unpack 0 [
    "A1F3R1G"]

/-- The category Cf, format. -/
def format : CharSet :=
  .ofSorted <| CharSet.unpack 0 [
    "6RA1gKFWA7KA1XAeUB3CA45JA26QE1AE1XEBJ1ovJA9PC4kZAPA9oKP11aUD5oXHnoxMA1E3R"]

/-- The category Cn, unassigned. -/
def unassigned : CharSet :=
  .ofSorted <| CharSet.unpack 0 [
    "yEBGDHABAUAfHA1MB1YBDA2DH1BDGKaKA2IB3XN2HB1XBPA1CBBALE1FACE9DAIBCBWAHABCEBJBCBEHBDCAFBZBDAGD",
    "CBWAHACACACBBAFDCBDCBGEABGRJDAJADAWAHACAFBKADADBBOEBMGHADAIBCBWAHACAFBJBCBDGDDCAFBSJCAGCDAEC",
    "CABACCCCDCMDFCDAEBBFBNVENADAXAQBJADAEGCADBBBEBKGWADAXAKAFBJADAEGCFCAEBKADLNADA1ZADAGDQB1AADA",
    "SCYAJABBHCBDGABAIFKBDL2GD1D1KCABAFAYABAXBFABAHAKBE1F2UA1KD1NA1KAPAN1K7QABEBBeNAEBHABAEB1PAEB",
    "1HAEBHABAEBPA2FAEB2PB1GC1AF3IBGBpTC3LGWIYIULNADACL3QBKFKF1AF3LG1RE2SJ1FAMDMDBC1QBFK1SD1AFLC2",
    "KB2NA1DBLFKFOB1F1W2ZA6KH2ICPC2KE1RBLH1REkOBGB1MBGBIABABABA1FB2BAPAOBGATBDAJA3XAMB1BANC1HO1HO",
    "5KDpQVLU1xSB1GAdLE1TABEBB2EGCNYIHAHAHAHAHAHAHAHA4W1H1AA3LL8GZ3CA3IB3ZE1RA3QA3II1WAvaRC2DIdKT",
    "7CH7YBCABAIU2HCKF2EH2SHMF4MK1EC3AALD1HA2DIOBKB3ZX1CJGBGBGIHAHA2ID4WBKFbxSLXD1XD9fAB4C1LHLFE1",
    "AAFABACACA4VPhDB2CGB1F1QF1ZATAEDFA5FBBA7ICGBGBGBDCHAHJFBMA1AATACAPBO1H4TEDD1TC3KANCB1U1U4Z1D",
    "C1XO1CD1KI1EE1RE1EA1LDO1P6CBKF1KD1KD1OH2AKMAPAHACALAPAHACC2ALbZIWJIXGA1QAJ2QGBBA1SACCBBXA2UH",
    "J1VTACE1HC1BEB2L2EDUB1YACEIADA1DBDDKGJG2M1F1NDMI2CC1DB1BE1AGELH3B2V2C1ZM1ZG1UHKF1MC1DHC7Z1FA",
    "1QADBCPD2C1SH1QV1A1L1CTXI3AD1KI2QJBBZGKF2BASH1NI3SAUKSA1V2JHABAEAPALF2HEKFEAIBCBWAHACAFAKBCB",
    "DBBFBEHBHCFKKABBBA1MAKABBBAEAKACHC1C3OAF1D2UHK6J2CB1M1H2RKKFNS2GFKFU1B1BBPDX7C2I3V3FLIBBBIAC",
    "A1EACBMIK2RIB1UBL1A2UH3FM2VGK6Z1INKFJA1TAOJ1DC1GBWAO2UHACA1SCBACAJHKFGACA1LACAGGKbXZGRA1PC1D",
    "3GBO1YMzN3X4HAFK7O2tJ3VM16SJ49REmL7bC2G1uRlXG1FAKD3DAKF1EBGJ2SJKAHAVETgP2G7P3N3W2XD2FGR2LFKC",
    "N6kAH1bQ1OK9jQEAHACAbFOB1CDBBNEHfG2gT4DENCJGKBI47F9QFgU2X1UBXI4M2H9MJ1NB7MU2S4RULUL3JIZ5E3HA",
    "2TACBBBCBEAMABAHA2NAEBIAHA1CAEAFABCHAdCBbGBrAOFAP16L1FFG8EHARBHACAFE2K1GB4H1TCOBKDCcH1FQ2GEB",
    "hV1Q8F1RDBiLHAEACAPA7PBQ1O2YDKDCuE2Q2X2J7LEA1BACABBBAKAEABABFBDBABABADACABBBABABABABACABBEAH",
    "AEAEABAKAREDAFAR1ZCaJ1SD3WLPBPAPA1LJ6S2D1DM1SDJGCNG5X11WDRCNC4PD3RFMDBOMD2EHKF1OH1EBMDC2JdCL",
    "OBNCKE2EGPBLFJG5RA3Y13P19nC1F4fUF8OB65QN7zLOnY2mVkW1lX59ZE4hGl4fKB1D3S4X9G1xhN1y0OB1y0OB"]

/-- The category Co, private use. -/
def privateUse : CharSet :=
  .ofSorted <| CharSet.unpack 0 [
    "1p9O6uDra5O1y0NC1y0N"]

/-- The category Ll, lowercase letter. -/
def lowercaseLetter : CharSet :=
  .ofSorted <| CharSet.unpack 0 [
    "3TZ2GA1PXBHBABABABABABABABABABABABABABABABABABABABABABABABABABABABBBABABABABABABABBBABABABAB",
    "ABABABABABABABABABABABABABABABABABABACABABCCABACADBEACADCCACABABACABBBACADABACBCCGACACABABAB",
    "ABABABABABBBABABABABABABABABBCABADABABABABABABABABABABABABABABABABABABABABABABABABABABABABAB",
    "GCACBBAEABABABAB2QB1A7LABADADCSA1B1IBBDCBABABABABABABABABABABABEBACACB1Z1VBABABABABABABABABA",
    "BABABABABABABABAJABABABABABABABABABABABABABABABABABABABABABABABABABABACABABABABABABBBABABABA",
    "BABABABABABABABABABABABABABABABABABABABABABABABABABABABABABABABABABABABABABABABABABABABA1W1O",
    "33B1QCCtGF2bUIBA4N1R2LMB1H3YABABABABABABABABABABABABABABABABABABABABABABABABABABABABABABABAB",
    "ABABABABABABABABABABABABABABABABABABABABABABABABABABABABABABABABABABABABABABABABABABIBABABAB",
    "ABABABABABABABABABABABABABABABABABABABABABABABABABABABABABABABABABABABABABABABABABABABABABII",
    "FKHIHIFKHIHINCHIHIHIEBBGADCBBIDCBIHKCBBaOADBDA1BAEAEACBIDEA2BA2xB1VBADBBABABAEABBBFFABABABAB",
    "ABABABABABABABABABABABABABABABABABABABABABABABABABABABABABABABABABABABABABABABABABABABABABBH",
    "ABAEAM1LBAFAx4DABABABABABABABABABABABABABABABABABABABABABABATABABABABABABABABABABABABABA5FAB",
    "ABABABABABCBABABABABABABABABABABABABABABABABABABABABABABABABABABABABABABABHBABACABABABABAEAB",
    "ACABCBABABABABABABABABABAFAFABABABABABABABAEABACADABABABABABA1AADAvP1QFIH3BloIGME14ZZ1bH1N5G",
    "1J5ZKBOBGBB1xB1Y4VV32O1FndW1FrsKZ1AGBR1AZ1ADBABGBK1AZ1AZ1AZ1AZ1AZ1AZ1AZ1AZ1A1B1CYBF1AYBF1AYB",
    "F1AYBF1AYBFBA1yYJBTGF2qD1H"]

/-- The category Lm, modifier letter. -/
def modifierLetter : CharSet :=
  .ofSorted <| CharSet.unpack 0 [
    "qMRELOEHABA5DAFAiKA8WA6IBaJBEA1FAJADA6EA6LA1bOA4XAlTA1vMA4DAnNAhWF6S2KNA1I1KqNANAQM38XB9HA7J",
    "AiBA1REFA3TB3PCudUA1cCFaKA4KA1CB4RI3CAXA4BCDBiBAWA5HA4EAVB3ZDJAmzIA1TB25OFB1PBI1iXA1GApnSDjO",
    "C1OBlEM2MBBAhiQDBGBBd6N2J7TG10FA17BA"]

/-- The category Lo, other letter. -/
def otherLetter : CharSet :=
  .ofSorted <| CharSet.unpack 0 [
    "6OAPA9WAED8AAvV1AED1T1FBJ1JBB3UBAYBKCCAQAB1D1D3KLAY1GVV1QYHKFXBFR1O2H2BDASAHJQOEHCBCVBGBADDD",
    "AQANBBCOBKAIFEBCVBGBBBBBB1FDBATCQIBCBVBGBBBEDASAPBXALHCBCVBGBBBEDA1EBBCPARABFDCBDDBBABBDBDCD",
    "LWA2AHBCBWBPDA1ACCACB1EAEHBCBWBJBEDA1FBBBPBRIBCB1OCAQAFCICYFFRDXBIBACG2G1VBBMF2HBBABEBXBABJB",
    "BJACEXD1GA2LHB1J1BE4L1QUAQFEDDADBHCEMMA4JcQBDCGBABDC1OBDC1GBDCGBABDCOB2EBDC2O1LP4JnVCQBZF2WG",
    "HHRNSOROMBCP1Z1OA2P1IB2AHEC1HBAF2RK1E1X1DCEL1REZ2CWJ2A6U1URH2C1DNBK1R1A1J1PCK1D4JDBFBBDA15QD",
    "39V2DYWJGBGBGBGBGBGBGBGlFA2BAE3HIAB3LEAF1QB3PR1F1WPjS71N2MmgEB17Y2P1NIaHEPKB2OA1X2R6NA3ZADGB",
    "CBDBW1D1ZO1X2KFDABBL1BKWZ1CH1U1TECIKEB1OXCBHUPBFDAD1XBADBCECABAYBDKHAOFCFCFJGBG5P1I1DbxRMWE1",
    "W91CeBC4B2PABJBMBEBABBBBB4D1HdYS2LC2B1OL4MEB5E4BJB1SC1EDFCFCFCC1JLBZBSBBBOCN1I4SeZ1CD1W1V1FN",
    "TBHG1LK1DC1JEH4Y2Z3U1NI1Z3O1ZMbYJVKH5WFCAB1RBBDACWKWJ1E2NSBBKVKZ2S2DGB2MAPDBCB1C1Q1CD1C1JHB1",
    "B1B2BKVKSNR4G2U7B1J1MDBAbS1PGBQC2H1CKAIV1QR1UU1BWM2A2FBCAN1S1GY1A1J1DACAI1IDAM1VODVABA1JRBYT",
    "B2LGBABDBOBJH1U1MHCBCVBGBBBEDASAME1EJBACAB1LBAZABA1S2ASDUC1E1VUBBA7C1U1PD1K1VUA2H1QNA2T1A1LG",
    "7D1R8DHCACHBBBXPABA3QHC1MQABA1CAK1NHAVAL1TTAS2U7R1G1FIB1KRA1X1D4IGBBB1LVAZFBBB1FOAcPSPABMB1H",
    "4UA3BzL8W7N2tK3SP15FRFZ49QFmK7bD1D1vUlWH1ER3AR1DS1V1ZUFSgT1NfP2WFA6T6jZI1bP1PJ9kHbEPA1DCCAOD",
    "IfF2gU4CFMDIHJ9fCAjH1S1HAcJ1DS1RiQ1A8V1DCAjBGBDBBBOB7O1fNDB1ABBBACABJBDBABAGAEABABABCBBBACAB",
    "ABABABABBBACDBGBDBDBABJBQFCBEBQ4qA19nB1G4fTG8NC65PO7zKPnX2mWkV1lY59YF4hF"]

/-- The category Lt, titlecase letter. -/
def titlecaseLetter : CharSet :=
  .ofSorted <| CharSet.unpack 0 [
    "hLACACA1MA83HHIHIHMAPA1VA"]

/-- The category Lu, uppercase letter. -/
def uppercaseLetter : CharSet :=
  .ofSorted <| CharSet.unpack 0 [
    "2NZ3XWBG1HABABABABABABABABABABABABABABABABABABABABABABABABABABABACABABABABABABABACABABABABAB",
    "ABABABABABABABABABABABABABABABABABABBBABADBBABBBCCDBBBCDBBBBABABBBACABBBCBABBDAHACACACABABAB",
    "ABABABABACABABABABABABABABACACABCBABABABABABABABABABABABABABABABABABABABABABABABABABABABABAH",
    "BBBCABDBABABABAbDABADAIAGABCBABBBQBI1JACCDABABABABABABABABABABABAFACABBC1Y1WABABABABABABABAB",
    "ABABABABABABABABAJABABABABABABABABABABABABABABABABABABABABABABABABABABABBBABABABABABACABABAB",
    "ABABABABABABABABABABABABABABABABABABABABABABABABABABABABABABABABABABABABABABABABABABABABAC1L",
    "33D1LBAFArU3H2cLAG1QCCcIABABABABABABABABABABABABABABABABABABABABABABABABABABABABABABABABABAB",
    "ABABABABABABABABABABABABABABABABABABABABABABABABABABABABABABABABABABABABABABABABAJABABABABAB",
    "ABABABABABABABABABABABABABABABABABABABABABABABABABABABABABABABABABABABABABABABABABABABAJHIFK",
    "HIHIFLABABABAIH2UDMDMDMELDaCAEADCCCCADEGABABABDCDKBFA2JA2vG1V1WABCCABABABDBACAICBABABABABABA",
    "BABABABABABABABABABABABABABABABABABABABABABABABABABABABABABABABABABABABABABABABABABABAIABAEA",
    "x6JABABABABABABABABABABABABABABABABABABABABABABATABABABABABABABABABABABABABA5FABABABABABABAD",
    "ABABABABABABABABABABABABABABABABABABABABABABABABABABABABABABAKABABBBABABABAEABACABADABABABAB",
    "ABABABABABABEBEBABABABABABABABDBABBDAFABABABAYAnuHZ1aZ1N5G1J6AKBOBGBB1wC1Y6BV32O1FndW1FrsQZ1",
    "AZ1AZ1AABBCACBCDBH1AZ1ABBDCHBG1BBBDBEBADG1BZ1AZ1AZ1AZ1AZ1AZ1EY1HY1HY1HY1HY1HA4pL1H"]

/-- The category Mc, spacing mark. -/
def spacingMark : CharSet :=
  .ofSorted <| CharSet.unpack 0 [
    "2gTA2DACCIDBB1YB2GCGBCBKA1RA2GC2OA2GCIABB2BB2GABAGBCBKA3YBBBDCBCKA1PC2JD2JB2GABECBBBJB1CAOB2",
    "GCFCBCKA1QB2XCGHSBcSB2LA6PBEAGACBZBKCCGVBCFCAKC1rSA1EA4ZAHHBBdIDCCEBBF8QB2GABAJABBIF5PA1WAFA",
    "BEBB2JA1EAEBCA2IACCBADB1WHIB6PAVA59EBwtBBCA3KB1YP5MB1VA1WBEBCC4GBCBYA1TABA4FACBFA9DBBBBBBArd",
    "JABA4XA1TCEB4LAYB2HA1WCJBNA3PCDBBA6OC1FB2GBBDCBCCJAKB3GCHACABDBBBA3XCIBDA4CCGABDCA9DCGDCA4JC",
    "IBBA4FABBGA3ZABBEAaBCJA9NFBBEACABA5MCIDEA3GA1DB2KAfRAOA4CAHACA8FEEBBAdMBMA1WBIBBAi0YC3vG2C4A",
    "BqnNBGF"]

/-- The category Me, enclosing mark. -/
def enclosingMark : CharSet :=
  .ofSorted <| CharSet.unpack 0 [
    "18QB62QA1oGDBC10iXC"]

/-- The category Mn, nonspacing mark. -/
def nonspacingMark : CharSet :=
  .ofSorted <| CharSet.unpack 0 [
    "tO4HaPEaF1SBABBBBBA2UK1WUQA3XGCFCBBD1JA1E1A3NK2GIJAYDBIBCBE1RC2HI1QXB1F2DABAEHEADGKB1DA2GAED",
    "IAUB1AACB2FAEBEBCCDA1EBDALB2FAEEBBEAUBWFBA2GACABDIAHBLB1EA2JAMA1YADA2DABCFCBDHBLB1DA2GACAGAF",
    "BUB1CB2FBEDIAUB1DA2UAHCBA3MACGMH3UACILG2VB1BABABA2DNBEBBFKB1JJA3YDBFBBCBZBECQDNACBGAPArBC10K",
    "C1DB1EB1EB2MBBGIACKJA1TCBA4NB1IA4OCEBJAGC8LBCA2GABGBABACHGJCA1WNBP1XD1WABEBAFA1OIMB1GDCBBC2E",
    "ABBDABC2GHCB5WCBMBGEAGADB7Q2LrSMEADL3aCC5LA3S1FlID4DBw8EAEJ1GB3CBaMADAEAZBFA5VB1ARNA1MHZK1UC",
    "1WACDCB1NA2PFCBCBMAIA1VA1ZABCCBFBBA1QBIA9EACAEAlnSAsJPQP11LA8SA5TE1sGCBBFD1OCEA6JBmBD2NEcFB3",
    "BD2SK1XD4TA2CO1PACBKC1XDCBHA2JC1KEBH2KAMB2AIKDCA3RCCABBGACA6BADHVB2FBDA1LGDE2SFNABABAOB3HHCC",
    "BAXA3GFBAEBBB9EDGBBB1BB3HHCABB4CABACFBA3XABACDBE9ZIBB9WBBAEA5ODCBEA1GJ1OFCDIAJFCC1UMBBfQGBFB",
    "A3EVCGBBBB4SFDABBBGBA2UBDABAdJBLB2AEFABAXA5pTAGOc8YLDC2oAE2HG14IA2LD3DAkzKB50Z1TCWkYCRHCG1ED",
    "5SC24D2CE1XIAOAWEBO1gIGBQCGBBBE3WA6EGeLA2JDjOD9UBsIG4FGnioV9F"]

/-- The category Nd, decimal number. -/
def decimalNumber : CharSet := digit

/-- The category Nl, letter number. -/
def letterNumber : CharSet :=
  .ofSorted <| CharSet.unpack 0 [
    "69UC2uT1ICD3ySAZIOCwgLJopG2AhSAIA5EE8sS4G"]

/-- The category No, other number. -/
def otherNumber : CharSet :=
  .ofSorted <| CharSet.unpack 0 [
    "6WBFACC2iRFeMF4QC5DG8JGRIgRJ15LT17VJiMA1sVADFGJ7QP1PArY2H3AVoG1D1hHA19CD5IJ1EHBO1GJ1NOw4IFoa",
    "N1S2NDRBdD1A1KD1fGHZG1NI2XEWF6EBCPC1T2MI2AB1EC2XE4AHYH1PGcSFdO1E6CJ1QD4IG5ETePT1fXBgOIxNSwTU",
    "knQGuSWreFTMT4EY5tUIzT2GBCBD2Y1SBO11AM"]

/-- The category Pc, connector punctuation. -/
def connectorPunctuation : CharSet :=
  .ofSorted <| CharSet.unpack 0 [
    "3RA8pVBTA1ooOBYC9FA"]

/-- The category Pd, dash punctuation. -/
def dashPunctuation : CharSet :=
  .ofSorted <| CharSet.unpack 0 [
    "1TA1gUA1ZA3wJA13PA27DF3tXACA1FBEA1CAhEATA4HA1k8AB1LAKA6NA3xOAcGA"]

/-- The category Pe, close punctuation. -/
def closePunctuation : CharSet :=
  .ofSorted <| CharSet.unpack 0 [
    "1PA1ZA1FA41DABA20OA2nDA2DAPAoKABA1EA15UABABABABABABA3CA1GABABABABAfOABABABABABABABABABABA2MA",
    "BA1HA14VABABABA1SABABABAgMABABABABADABABABACB1k3QA8JA1DABABABABABABABADARABABA6OA1ZA1FACACA"]

/-- The category Pf, final punctuation. -/
def finalPunctuation : CharSet :=
  .ofSorted <| CharSet.unpack 0 [
    "7FA8kVADA1CA3rSABAEACAPADA"]

/-- The category Pi, initial punctuation. -/
def initialPunctuation : CharSet :=
  .ofSorted <| CharSet.unpack 0 [
    "6PA8lKACBCAZA3rSABAEACAPADA"]

/-- The category Po, other punctuation. -/
def otherPunctuation : CharSet :=
  .ofSorted <| CharSet.unpack 0 [
    "1HCBCCABABBKBDB1BA2QAFAOBHArAAIAhYF1PA2CACACA1SBUBBBNABC2WD3YA1RN8ZC2CO1FAaBBKA5KA4QA4RAfAAM",
    "AeDA3MAKB6MOBA4IA2WEEB4HF6PAnOItTA4UC2TB6BCBC1LFBDcBB8IB4YGBF6EBKG1CC4UD2HE2KB2MHLAwCBIHIICD",
    "CCDKBABJ3gCDBB4IA5NBECCACIBBBACBKEBJCDBABMCCgMC2FA7HAvqGBaJC3VAKA4LFeQD3IB1OCBA1XB1VA3TMQB4U",
    "D4WBQB9PAmgUGCAWAUBCDDCBDHCGABB5TCBCCABABBKBDB1BA1KACBfUCpSA1WAfYAsPA7RA1FAaMI1MA4IG2OG3LD10",
    "QE1SD7HG4FBBD4WD1WB3BDEANABC3KF4DAbMBBB4KEKBBA4AA9QW4BC1CM2YA5AC9SAaEC5ZA3OH3FCBE3PJ8HA3RE1Q",
    "BoVB2WM6TA17SE35CBfzVB5DA2NEIAlGCbJDcPAkzOA86LE34TAxEB"]

/-- The category Ps, open punctuation. -/
def openPunctuation : CharSet :=
  .ofSorted <| CharSet.unpack 0 [
    "1OA1YA1FA41EABA20OA2lMADA1MA2DAPAoKABA1EA15UABABABABABABA3CA1GABABABABAfOABABABABABABABABABA",
    "BA2MABA1HA14VABABABAZASABABABAgMABABABABADABABABACA1k3TA8HA1DABABABABABABABADARABABA6OA1YA1F",
    "ADACA"]

/-- The category Sc, currency symbol. -/
def currencySymbol : CharSet :=
  .ofSorted <| CharSet.unpack 0 [
    "1KA4VD1cJA4TAjEBjEBHA9LAaDAmJA2mPA2eI1G111VAngLA4EA5YA8LBDB8qSD1hdEA2nKA"]

/-- The category Sk, modifier symbol. -/
def modifierSymbol : CharSet :=
  .ofSorted <| CharSet.unpack 0 [
    "3QABA2TAGAEADAkBDMNFGBABQ4NAOB1dIA6cMABCLCNCNCNB4jOBwdRWJB3ZB11OAOBlyKQyHABA6GA1urJE"]

/-- The category Sm, math symbol. -/
def mathSymbol : CharSet :=
  .ofSorted <| CharSet.unpack 0 [
    "1RAQC2JABA1TAEA1LA1FAtMAkHC76HANA1NCNC5JA1NEGA2QEFBEACACAHA1FBCABA1FaH1GB3MA1EY1OFiBAJA2CH4H",
    "AcYEC1EKP9W5AW2KE1FC9X1WUCF1kuQAvSABC6IAQC2JABA5BAGD3qFB1j0ZAZA1FAZA1FAZA1FAZA1FAZA6cEB"]

/-- The category So, other symbol. -/
def otherSymbol : CharSet :=
  .ofSorted <| CharSet.unpack 0 [
    "6KACAEABA11PAaGB4XB7YAKATB9NAjVAeJA5AFBA5CA7ZA1PAfBCPABCCFUABABA5DHBFBBFD7PBsYJrVArUA6B1HdPJ",
    "JI1iHBBDBBKABBGFBABABAEALBOABBBA2GBJECDBBBBBGB1ECBBAB1EaIHETCGC3CB1DZ1NG2TWK3D2ZW7ABIB2BI4GB",
    "9N1S1R2M9VjS1VVBG1MC1FB4A8VFdTB1UZB3KM8F1APEANBMAVBGBcYBEJ1G1LJAQ1EL1DIAP1FK1MPcH71O2LnoI2Cx",
    "HDKBBAmBCmnAP4XA1TCiQADAEBNBcBI2FQCCBMDA1V1S1rUBmTA3eSA2cNHEQklIDFAm8WA47N9FQgT6A4L2I9LK1MC2",
    "HFCWBH1DE2IV2NDA7E3I19XjR2DD1YHBNBB1uUA33WA4ZArT1RE3VMOCOBOB1KX6E2E1CN1REIHBOF5Y9QFrZEQDMD4O",
    "E3QGLEAPLE2DIJG1NI1DCLEB2KdBMNCMDJF2DHOCKGIH5QB3N"]

/-- The category Zl, line separator. -/
def lineSeparator : CharSet :=
  .ofSorted <| CharSet.unpack 0 [
    "8sQA"]

/-- The category Zp, paragraph separator. -/
def paragraphSeparator : CharSet :=
  .ofSorted <| CharSet.unpack 0 [
    "8sRA"]

/-- The category Zs, space separator. -/
def spaceSeparator : CharSet :=
  .ofSorted <| CharSet.unpack 0 [
    "1GA4XA5zJA2lNK1KA1VA49WA"]

/-- The group LC, cased letter. -/
def casedLetter : CharSet :=
  CharSet.unions [uppercaseLetter, lowercaseLetter, titlecaseLetter]

/-- The group L, letter. -/
def letter : CharSet :=
  CharSet.unions [casedLetter, modifierLetter, otherLetter]

/-- The group M, mark. -/
def mark : CharSet :=
  CharSet.unions [nonspacingMark, spacingMark, enclosingMark]

/-- The group N, number. -/
def number : CharSet :=
  CharSet.unions [decimalNumber, letterNumber, otherNumber]

/-- The group P, punctuation. -/
def punctuation : CharSet :=
  CharSet.unions [connectorPunctuation, dashPunctuation, closePunctuation,
    finalPunctuation, initialPunctuation, otherPunctuation, openPunctuation]

/-- The group S, symbol. -/
def symbol : CharSet :=
  CharSet.unions [mathSymbol, currencySymbol, modifierSymbol, otherSymbol]

/-- The group Z, separator. -/
def separator : CharSet :=
  CharSet.unions [spaceSeparator, lineSeparator, paragraphSeparator]

/-- The group C, other. -/
def other : CharSet :=
  CharSet.unions [control, format, unassigned, privateUse]

/-- The general categories and their groups, each under its names without spaces, dashes and
capitals. -/
def categories : List (List String × CharSet) :=
  [(["cc", "control", "cntrl"], control),
   (["cf", "format"], format),
   (["cn", "unassigned"], unassigned),
   (["co", "privateuse"], privateUse),
   (["ll", "lowercaseletter"], lowercaseLetter),
   (["lm", "modifierletter"], modifierLetter),
   (["lo", "otherletter"], otherLetter),
   (["lt", "titlecaseletter"], titlecaseLetter),
   (["lu", "uppercaseletter"], uppercaseLetter),
   (["mc", "spacingmark"], spacingMark),
   (["me", "enclosingmark"], enclosingMark),
   (["mn", "nonspacingmark"], nonspacingMark),
   (["nd", "decimalnumber", "digit"], decimalNumber),
   (["nl", "letternumber"], letterNumber),
   (["no", "othernumber"], otherNumber),
   (["pc", "connectorpunctuation"], connectorPunctuation),
   (["pd", "dashpunctuation"], dashPunctuation),
   (["pe", "closepunctuation"], closePunctuation),
   (["pf", "finalpunctuation"], finalPunctuation),
   (["pi", "initialpunctuation"], initialPunctuation),
   (["po", "otherpunctuation"], otherPunctuation),
   (["ps", "openpunctuation"], openPunctuation),
   (["sc", "currencysymbol"], currencySymbol),
   (["sk", "modifiersymbol"], modifierSymbol),
   (["sm", "mathsymbol"], mathSymbol),
   (["so", "othersymbol"], otherSymbol),
   (["zl", "lineseparator"], lineSeparator),
   (["zp", "paragraphseparator"], paragraphSeparator),
   (["zs", "spaceseparator"], spaceSeparator),
   (["c", "other"], other),
   (["l", "letter"], letter),
   (["lc", "casedletter"], casedLetter),
   (["m", "mark", "combiningmark"], mark),
   (["n", "number"], number),
   (["p", "punctuation", "punct"], punctuation),
   (["s", "symbol"], symbol),
   (["z", "separator"], separator)]

end Tinct.Unicode
