import Tinct.CharSet

/-!
# Ages

The characters that each version of the Unicode character database added.
-/

namespace Tinct.Unicode

/-- The characters added by each version, oldest version first, under the names of the version. -/
def ages : List (List String × CharSet) := [
  (["1.1", "v11"], .ofSorted <| CharSet.unpack 0 [
    "AjHE1D2E3KH1UBJW2R1ABSBEADAFGBABTB1RBGDABABABABRNLB2NBLB1OJ2ACBCBD1BCHCB2D1LCGB1MBA1MJBIM1AF",
    "EXAOADABZFSNNC2TCEBOB1DCJjZCB2ACRCEDYQCBHCBCVBGBADDCABGCBCCJAEBBECUHACFEBCVBGBBBBBBCABEEBCCL",
    "DBAHOMCBGBABCBVBGBBBECJBCBCCAPAFJRCBHCBCVBGBBCDCHDBCCIBEBBCEKRBBFDCBDDBBABBDBDCDHBCEEDCBDJAP",
    "LOCBHBCBWBJBEEGBCBDHBJBEJSBBHBCBWBJBEEGBCBDHBHABBEJSBBHBCBWBPEFCCBDJAIBEJ5P2FE1C1LBBACBBACAG",
    "DBGBCBABACBBMBCCEBABFCJCBhI1LK1MEAE3LF2PF3D3aK5YF3LGVCFC1LCFCHBABABAB1EC2ABOBNCFBSCCBIB1UBW1",
    "JGD1ARK1LR1E2E1A1VN3MV9HOAB4Q5D1K1BKV5IV5TK3BQTG3H5PDBDC1BB1IBABDDABGCGO1EDXBN29H2DHAB3FEFC3",
    "PG1NE3PBP3S1CD1J1C1BD1XPLE1UB4OE3UC1E74BmbXhlQ75T8CGMEGYBEBABBBBB4D1HeAQ2LC2B1OL1KDMUEJBSBDE",
    "CBAB5ECAB3PC3PDFCFCFCCDGBGOC"]),
  (["2.0", "v20"], .ofSorted <| CharSet.unpack 0 [
    "1iVQBMUA2iX2TB1GH1AEFBABUDGBA42NAkHA123WbxR291YB1y0OB1y0OB1y0OB1y0OB1y0OB1y0OB1y0OB1y0OB1y0O",
    "B1y0OB1y0OB1y0OB1y0O3w1H"]),
  (["2.1", "v21"], .ofSorted <| CharSet.unpack 0 [
    "8xSA1p2TA"]),
  (["3.0", "v30"], .ofSorted <| CharSet.unpack 0 [
    "jID1EHCR4NE1XAKE3JITA4MADABABABA1EAMA2OAMA1QBCD3OB6AA7SC3UBFAPA1QEBNB1DD1A2B1W1lHBBRDXBIBACG",
    "DAEFBABHSCeJA1RAXCHABCBOCA1W1HBEBBBGDDGZgGGB2KBABDCGBABDC1MBABDC1EBABDCGBABDCGBGBWB1EBABDCGB",
    "1MBSG1B1J3GMoFJ1CD3C5N3ODJWOBJG3JI1P22BAYF3RC1YB3HB2UA3ZIaJA4RAB1D5IBhPH1HA3IBfI9V1iEZB3KM8F",
    "1AL2ICDAdPXmM71DmiG18UDRCPBLBCBAnmCA1bVC"]),
  (["3.1", "v31"], .ofSorted <| CharSet.unpack 0 [
    "12YB1wcC1F1dW1EBDM1A6Z1LC1L1jpQ9LK1MD6XlA3GB2SBBCACBCDBLBABDBBB2MBDCHBGB1BBDBEBADGBcZEbDE1Xa",
    "xW19mSm7DkVlfsTA1E3R"]),
  (["3.2", "v32"], .ofSorted <| CharSet.unpack 0 [
    "kYAbQATM4AB1CA5RB2FBCBCB1XPdMBcJA2jHB1nJMBGLWJTMMBCBB2eXAGEEAHENA2KB1YG3EO6ML9IN4UA1E1ZaYT5V",
    "J3KHWB3MLCJ8ON3M1BEP9WjR1fNC3JBIB3QA9GP3DO3DOv5IBQAMADAndA2GzDADP2BB1SA9BB"]),
  (["4.0", "v40"], .ofSorted <| CharSet.unpack 0 [
    "kZASC4PB2LQ3CHFC5VEjWDJI2MC5TBPA1TC1DCgUA7CA2PABA5GA3GCNA2PA2HA4ZH7LB31NASJaC1CDLELEAD1PCE4D",
    "1FtO4DsPB8WApJBbQAaQB4MHOB17AN1xNB1XA1RB3AD6LD3VB1FA71O2L1c4VA2VBgXLBZBSBBBOCN1I4SFCE1SDImE1",
    "DBA5EB1M3BCJwWFCAB1RBBDACA1jgI3IdYAnobA9F"]),
  (["4.1", "v41"], .ofSorted <| CharSet.unpack 0 [
    "lVKaSE6DD9MB6OA1IC2PASA2GF9H1DkHA3CAiTA1VA12NBbJBBAaGA2LA2LA1NA1FA1FA1FAPA1NAXB1FZ1mC1PGZGJE",
    "B1G1BCBwM3JpHBBG1XE1DD2BA3CAPAoUKmAA3XBSKFPaKGwHF9C1UB1U1H4CO1SK2BJAQWJGBGBGBGBGBGBGBG1HXEBz",
    "UP6SAtuTV1zOW8Z1RmiA4BvQJvA2WkN1JEN1oSDBBFHBCB1AECEIII1ilV2R17AB"]),
  (["5.0", "v50"], .ofSorted <| CharSet.unpack 0 [
    "mGNbNCcZA1QFQD6KAjX2GeUBBBxIBNB3uJ2XE1SmLG1ZBsUD3PB2BAnBLrMAaQDwJGFDcEMHDxjJDFBbA2DqeMZFA69G",
    "xU5P3UND1buIR16UB"]),
  (["5.1", "v51"], .ofSorted <| CharSet.unpack 0 [
    "xWDCB3JA7BA5KP8SELE1GEbQRjDB8OA1JA7YA1DB4EA4EA1ABIBUH7HAGA1DBMFDGiXB3TADC2ZAFACAHCEF1A2LEB27",
    "EArX1QDL2S2DDOD1YcT1B6ZD3MFdSA5JA3QA2BD1eAAVJDDaEA1FDvFEE1ODEaUCBCEFdQ1FYDCStKA6GTu1OH1fObNU",
    "1FCRI1B5BEC4C4GE4Y2QJL1M3FLA6E2CJNCJCDmwUCxPL2A1T5A1CD1W1qDZFA1ioJA8fQ1RE3V"]),
  (["5.2", "v52"], .ofSorted <| CharSet.unpack 0 [
    "1eQBsC1TCO7LA2ZAGA1JB4YA1lPD7LD7GE2QE3EFjSAoGIlO2R6YB1UA2R2KB1CCKGJGNlA1IaGAqUC5VC2CAnIAqRB1",
    "DCEJBSBAEX3JA13HEaSANB4DGcHA14CLtxSH1dK1VgA3JcAJ6K1B3W1CD2ZBKEB4Y1BE2OYE8Q1TCJbyKWE1W9fBC3sC",
    "VBI7EBcM1F4Y2BD1CC1AFH4Y2UkP1EjT2N8jQ15E1fnDKF1ECALABACADADEIAHAZABBCAKDCA4HAP1HOI1dfJ4fO"]),
  (["6.0", "v60"], .ofSorted <| CharSet.unpack 0 [
    "1eSB9OA2KAiM1BCA8LBTAGB1BEjMFgRAQATAmBD2VByOB2aN1ZIDjOApOH1CAvJKsCATABD1DAEB1CA1JABAECJB2ACY",
    "AOAOB1jKAOA15OCvwNBbNBBBOJ3CAtUFCFCFJGBGm0TP5jI2ZE1DnyElWj3BBhoGOCNCOBO3CABKBABBBCBCFHBGBJGI",
    "BACBBJEBBJ2XZBB1VIVB6S1GPFB2RDTM1KBEVQP2KBAB6ZBDD2JSX5REBPBCBABABABCBFCDBACDBLEK1W2R2G4L1ggM",
    "8N"]),
  (["6.1", "v61"], .ofSorted <| CharSet.unpack 0 [
    "1iTA4MApRABK2D1AjDA12RBiTAFA1VC2xBCMF9WH1RD2yQABA1eQB1ZAFA2EB7UJv2EA1tNH1JA9IBWA2ZBsOWlnZB46",
    "U2DGB1xOYHJG2ABN2I2UHJ19U2DIJo4O2QL1UQQykIDB1ABBBACABJBDBABAGAEABABABCBBBACABABABABABBBACDBG",
    "BDBDBABJBQFCBEBQ2ABoIB11SD7GAQADABABABADAGBEABBEA"]),
  (["6.2", "v62"], .ofSorted <| CharSet.unpack 0 [
    "8yGA"]),
  (["6.3", "v63"], .ofSorted <| CharSet.unpack 0 [
    "1oEA76VD"]),
  (["7.0", "v70"], .ofSorted <| CharSet.unpack 0 [
    "yLAgIH3PB4OApRALF2YA4QAHAoPA1ZA2YA4XA8UJ2gRHlCBfLOlXB9DOrHCvQGtTA16ICKZC1FC1HDLBHnUGwwVF9MLL",
    "CCB2RAiU1E4VD6U1VEBmmVGxDBTAcH1B1JA1W1QeZ1NI1ZLA5ObYJVKH9O2KIIhW1F1G1MEL5HRHDMG1bJA8A1M3IAMA",
    "GTLRB1Q4K2GFJHCBHCBCVBGBBBECICBCCJAFGCGDEaH2TIJ6K2BCR2C2QLJmK3EMAhG2E2bI1P7ULFAj3F1EBJEB3S1D",
    "CFK2RKJBGBUFSm0A4CFMDIHJCHbuY7OCP25WA1GVVBkMLJA2SAWL1LAFDFLRG2TABA7AAEB2LBEG1DRB1OB3H2SBN1V2",
    "SJQMDD5K3G1RLE2DIJG1NI1D"]),
  (["8.0", "v80"], .ofSorted <| CharSet.unpack 0 [
    "2dRB1UAkNAdOAaAA1sVACF3hOA7VB2uEDvoVI1uUA9GA1IFcMBnMDM3BmjQB2xGSBBFE7GBCPC1ToQ1YN1YHF1bDDOE6",
    "EGBABDBOBK3IA3BAoJTbEZDOEP3dPA8W7N8eQmK126LK1nZpBPEBO6pDC3AB3BE1KH9VA2XE9JB5JAmDI3ZE2HA1g2L6",
    "5P"]),
  (["9.0", "v90"], .ofSorted <| CharSet.unpack 0 [
    "2dUHWOzPA7YAECBGXC43ZIeGA1nBD2tCBx7LAaSAoaDBuV1JE1J3mOAhH3LBABAjUM1iXIB1SBNK1CD1FCVBNmqVA1F6",
    "jOTtAn9LGBQCGBBBE2eZ2WFJEB29BR5MAvYA1PAbOB1HClAFBHIACLBLEO1MM"]),
  (["10.0", "v100"], .ofSorted <| CharSet.unpack 0 [
    "2aMKfLB9SFjSA2GB4aWA9UDrHAvZA25AAoCEsMAu9NUr5IC68Q2TI1ZCWBEnHGBBB1RDABBBIIJmkPAhjKaY3DfFhcEF",
    "17PB1IBjZLTAIHBBZASM1MF2EW1m7D7zK"]),
  (["11.0", "v110"], .ofSorted <| CharSet.unpack 0 [
    "1gYA1NA3YAkFC8DAbMA4PAfHA4XA39RA14H1QCC43MCWYEOmPEsIAuaHE24HAIBcMBqlCBSAqT1NIJhM1NI1PeHA4OCj",
    "GAbEAqXA8V2HnLArEFBBB1KBBBFHJbYYloP3M6xIEkhUT4WG6tW2P18CA1kZA8LDeIC1CECDDABDYKNJHB1KY3SN"]),
  (["12.0", "v120"], .ofSorted <| CharSet.unpack 0 [
    "3eTAkGACACABFEAHAHBCANA3wHA41UA2BAmTAx7MFCEzRBrhGW17KAnCAsPHC1TCK6DB1fM1XNA5iUIg5KFEA1VI3MB6",
    "kWFbbCCRDd0Q1SDNCJEBeE2FFA1pZA10N2I15EA1hGA1KA8VLbDC1VA1XAJA1PFDBKFDHCC1W3F1CDECFCNF"]),
  (["12.1", "v121"], .ofSorted <| CharSet.unpack 0 [
    "dyDA"]),
  (["13.0", "v130"], .ofSorted <| CharSet.unpack 0 [
    "2eCJpDAgOA4UA3mJB4lUAqUCxOE7nIJmhGM24SD1QB2BAvVDnkQA3iX1PBCCB9U1BePA5EBpAAFB19MGCACHBBB1DBBC",
    "LJJ1qKAlxRALB7dXiO1QIrcUC3PC2JA1eUB1JBgTB3MA3XAEB1QBGC1DA6MAODPSHGJCNG1P5QB2C1LJ1aqJGodQ59Y"]),
  (["14.0", "v140"], .ofSorted <| CharSet.unpack 0 [
    "1oFAmW1EBBGHVASKxPA1GA4XA2sHAHAJA9FAqNN4VA1WBoLArHA34OA1VAjFKv2TC24IBOBBABEYCmxDAeRP4XA1UB21",
    "GKBOBGBBBKBOBGBBhJFB1PBI23XZ8WF2YA1mSA5EGxPP5oY3UfzX3ABJiwWDBGBBbCD86B1TCWJ4LlDB3kV1ExX1E1fD",
    "GBDBBBO42KCaMAfCA3EA6SB1SDKDICRCGHIG1b0PB4gVD"]),
  (["15.0", "v150"], .ofSorted <| CharSet.unpack 0 [
    "3jNAiGA1y2KCvZC2eCJ13AQB1OD1B5pDAJ1Cy5KA1IA95AT3dHFaB2J1HA15W1P4wCA5VCEE3LApRCPB1KCLCBAOBKBM",
    "AOB1fhOAp6S4hF"]),
  (["15.1", "v151"], .ofSorted <| CharSet.unpack 0 [
    "d4MDjBA5awQnX"]),
  (["16.0", "v160"], .ofSorted <| CharSet.unpack 0 [
    "2cPA54GB1VAaFB22YC3rEBw8VCMCpoL1Z1zW1LD1CIBbUC2DA18LJBACAB1LBJBACABDBJBBIBsVT1bW1HOJxGA5qZ49",
    "Q7xT2F3aK2F8mJAh8I9PGgT6bO1QEA54CJEBhNAFA1UAHAVACAJA8R1K"])]

end Tinct.Unicode
